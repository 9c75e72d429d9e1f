import Renegade.Gossip.Heartbeat

/-!
# The heartbeat timer

`HeartbeatTimer::execution_loop` walks the known-peer index by position: each iteration reads the
peer at `peer_index` in the index's iteration order, enqueues an `ExecuteHeartbeat` job for it
unless the position is past the end or holds the local peer, and moves to the next position,
back to `0` once it reaches the peer count. It then sleeps `wait_period / (peer_count as u32)`,
which panics on a zero divisor: on the empty map the timer can read before the network manager
adds the local peer, and on any count that is a multiple of `2^32`. Over a fixed index of `n`
peers the positions visited from any start are consecutive modulo `n` (a start past the end
first costs one empty iteration), so any `n + 1` consecutive iterations reach every peer and
any `n` reach none twice.

The executor handles an `ExecuteHeartbeat(p)` job with `send_heartbeat(p)`. Jobs queue up while
the executor lags, and the timer enqueues a peer again every period, so two jobs for one peer
can wait in the queue together; when the first expires the peer, the second panics in
`maybe_expire_peer`. Jobs for distinct indexed peers never panic, so an executor that lags the
timer by at most one period is safe.
-/

namespace Renegade.Gossip

/-- One pass through the body of `execution_loop` up to the sleep: the job it enqueues and the
next `peer_index`. -/
structure TimerIteration where
  /-- The peer of the `ExecuteHeartbeat` job enqueued, if any. -/
  job : Option WrappedPeerId
  /-- The next value of `peer_index`. -/
  peerIndex : Nat

/-- The job for the peer at a position of the index: none past the end or for the local peer. -/
def jobAt (localPeerId : WrappedPeerId) (peers : List WrappedPeerId) (peerIndex : Nat) :
    Option WrappedPeerId :=
  match peers.get? peerIndex with
  | none => none
  | some peerId => if peerId = localPeerId then none else some peerId

/-- The body of `execution_loop` over the known peers `peers`, in the index's iteration order. -/
def timerIteration (localPeerId : WrappedPeerId) (peers : List WrappedPeerId) (peerIndex : Nat) :
    TimerIteration :=
  ⟨jobAt localPeerId peers peerIndex,
    if peerIndex + 1 ≥ peers.length then 0 else peerIndex + 1⟩

/-- Whether `wait_period / (peer_count as u32)` divides by zero, where `Duration`'s division
panics. -/
def quantumPanics (peerCount : Nat) : Bool := UInt32.ofNat peerCount == 0

/-- Iterations of `execution_loop`, each reading the known peers it observes: the jobs enqueued,
the last `peer_index`, and whether an iteration panicked, which ends the loop. -/
def executionLoop (localPeerId : WrappedPeerId) :
    List (List WrappedPeerId) → Nat → List WrappedPeerId × Nat × Bool
  | [], peerIndex => ([], peerIndex, false)
  | peers :: observed, peerIndex =>
    let it := timerIteration localPeerId peers peerIndex
    if quantumPanics peers.length then (it.job.toList, it.peerIndex, true)
    else
      let rest := executionLoop localPeerId observed it.peerIndex
      (it.job.toList ++ rest.1, rest.2)

/-- `n` iterations over a fixed index: the jobs enqueued and the last `peer_index`. -/
def timerRun (localPeerId : WrappedPeerId) (peers : List WrappedPeerId) :
    Nat → Nat → List WrappedPeerId × Nat
  | 0, peerIndex => ([], peerIndex)
  | n + 1, peerIndex =>
    let it := timerIteration localPeerId peers peerIndex
    let rest := timerRun localPeerId peers n it.peerIndex
    (it.job.toList ++ rest.1, rest.2)

/-- The positions `n` iterations read over a fixed index of `count` peers. -/
def visited (count : Nat) : Nat → Nat → List Nat
  | 0, _ => []
  | n + 1, peerIndex =>
    peerIndex :: visited count n (if peerIndex + 1 ≥ count then 0 else peerIndex + 1)

/-! ## The loop over a fixed index -/

section Fixed

variable (localPeerId : WrappedPeerId) (peers : List WrappedPeerId)

/-- The loop over a fixed index whose size is not a multiple of `2^32` makes exactly the
iterations of `timerRun`. -/
theorem executionLoop_replicate (hcount : quantumPanics peers.length = false) :
    ∀ (n peerIndex : Nat), executionLoop localPeerId (List.replicate n peers) peerIndex =
      ((timerRun localPeerId peers n peerIndex).1, (timerRun localPeerId peers n peerIndex).2,
        false)
  | 0, _ => rfl
  | n + 1, peerIndex => by
    simp only [List.replicate_succ, executionLoop, hcount, timerRun,
      executionLoop_replicate hcount n]
    rfl

/-- The jobs of a run are the jobs at the positions it visits. -/
theorem timerRun_jobs : ∀ (n peerIndex : Nat),
    (timerRun localPeerId peers n peerIndex).1 =
      (visited peers.length n peerIndex).filterMap (jobAt localPeerId peers)
  | 0, _ => rfl
  | n + 1, peerIndex => by
    simp only [timerRun, timerIteration, visited, List.filterMap_cons, timerRun_jobs n]
    cases jobAt localPeerId peers peerIndex <;> rfl

end Fixed

/-- From a position inside the index, the positions visited are consecutive modulo its size. -/
theorem visited_of_lt {count : Nat} : ∀ (n : Nat) {peerIndex : Nat}, peerIndex < count →
    visited count n peerIndex = (List.range n).map fun j => (peerIndex + j) % count
  | 0, _, _ => rfl
  | n + 1, peerIndex, h => by
    have hnext :
        (if peerIndex + 1 ≥ count then 0 else peerIndex + 1) = (peerIndex + 1) % count := by
      split_ifs with h'
      · rw [show peerIndex + 1 = count by omega, Nat.mod_self]
      · rw [Nat.mod_eq_of_lt (by omega)]
    rw [visited, hnext, visited_of_lt n (Nat.mod_lt _ (by omega)), List.range_succ_eq_map,
      List.map_cons, List.map_map]
    refine congrArg₂ _ (Nat.mod_eq_of_lt h).symm (List.map_congr_left fun j _ => ?_)
    rw [Function.comp_apply, Nat.mod_add_mod, Nat.add_right_comm, Nat.add_assoc]

/-- Every position of the index is among the `count` positions visited from one inside it. -/
theorem mem_visited {count peerIndex k : Nat} (h : peerIndex < count) (hk : k < count) :
    k ∈ visited count count peerIndex := by
  rw [visited_of_lt count h, List.mem_map]
  by_cases hle : peerIndex ≤ k
  · exact ⟨k - peerIndex, List.mem_range.mpr (by omega), by
      rw [Nat.add_sub_cancel' hle, Nat.mod_eq_of_lt hk]⟩
  · refine ⟨count - peerIndex + k, List.mem_range.mpr (by omega), ?_⟩
    rw [show peerIndex + (count - peerIndex + k) = k + count by omega, Nat.add_mod_right,
      Nat.mod_eq_of_lt hk]

/-- A run visits the positions of the shorter run first. -/
theorem visited_sublist (count : Nat) : ∀ (n peerIndex : Nat),
    List.Sublist (visited count n peerIndex) (visited count (n + 1) peerIndex)
  | 0, _ => List.nil_sublist _
  | n + 1, _ => (visited_sublist count n _).cons₂ _

theorem visited_sublist_of_le (count : Nat) {n m : Nat} (h : n ≤ m) (peerIndex : Nat) :
    List.Sublist (visited count n peerIndex) (visited count m peerIndex) := by
  induction m, h using Nat.le_induction with
  | base => exact List.Sublist.refl _
  | succ m _ ih => exact ih.trans (visited_sublist count m peerIndex)

/-- The `count` positions visited from one inside the index are distinct. -/
theorem nodup_visited {count peerIndex : Nat} (h : peerIndex < count) :
    (visited count count peerIndex).Nodup := by
  rw [visited_of_lt count h]
  refine (List.nodup_range count).map_on fun j hj j' hj' he => ?_
  rw [List.mem_range] at hj hj'
  have := Nat.ModEq.add_left_cancel' peerIndex he
  rwa [Nat.ModEq, Nat.mod_eq_of_lt hj, Nat.mod_eq_of_lt hj'] at this

/-! ## Coverage and spacing -/

section Spacing

variable {localPeerId : WrappedPeerId} {peers : List WrappedPeerId}

/-- The job at a position holding a peer other than the local one is that peer's. -/
theorem jobAt_of_getElem {k : Nat} (hk : k < peers.length) (hp : peers[k] ≠ localPeerId) :
    jobAt localPeerId peers k = some peers[k] := by
  rw [jobAt, List.get?_eq_getElem? _ _, List.getElem?_eq_getElem hk]
  exact if_neg hp

/-- A job names the peer at its position, which is not the local peer. -/
theorem getElem_of_jobAt {k : Nat} {p : WrappedPeerId} (h : jobAt localPeerId peers k = some p) :
    ∃ hk : k < peers.length, peers[k] = p ∧ p ≠ localPeerId := by
  unfold jobAt at h
  split at h
  · cases h
  · rename_i q hq
    split_ifs at h with hl
    cases h
    obtain ⟨hk, he⟩ := List.getElem?_eq_some_iff.mp (by rw [← List.get?_eq_getElem?]; exact hq)
    exact ⟨hk, he, hl⟩

/-- On an index without repeated peers, a job names the one position holding its peer. -/
theorem jobAt_inj (hnodup : peers.Nodup) {k k' : Nat} {p : WrappedPeerId}
    (h : jobAt localPeerId peers k = some p) (h' : jobAt localPeerId peers k' = some p) :
    k = k' := by
  obtain ⟨hk, rfl, -⟩ := getElem_of_jobAt h
  obtain ⟨hk', he, -⟩ := getElem_of_jobAt h'
  exact (hnodup.getElem_inj_iff.mp he).symm

/-- A start past the end costs one empty iteration and restarts at the first position. -/
theorem timerRun_of_length_le {peerIndex : Nat} (h : peers.length ≤ peerIndex) (n : Nat) :
    timerRun localPeerId peers (n + 1) peerIndex = timerRun localPeerId peers n 0 := by
  have hnone : jobAt localPeerId peers peerIndex = none := by
    rw [jobAt, List.get?_eq_none.mpr h]
  simp only [timerRun, timerIteration, hnone, if_pos (by omega : peerIndex + 1 ≥ peers.length)]
  rfl

/-- A run enqueues only peers of the index other than the local one. -/
theorem mem_of_mem_timerRun {n peerIndex : Nat} {p : WrappedPeerId}
    (h : p ∈ (timerRun localPeerId peers n peerIndex).1) : p ∈ peers ∧ p ≠ localPeerId := by
  rw [timerRun_jobs, List.mem_filterMap] at h
  obtain ⟨k, -, hjob⟩ := h
  obtain ⟨hk, rfl, hl⟩ := getElem_of_jobAt hjob
  exact ⟨List.getElem_mem hk, hl⟩

/-- Over an index without repeated peers, at most as many iterations as there are peers, from
any `peer_index`, enqueue no two jobs for one peer. -/
theorem nodup_timerRun (hnodup : peers.Nodup) {n : Nat} (hn : n ≤ peers.length)
    (peerIndex : Nat) : (timerRun localPeerId peers n peerIndex).1.Nodup := by
  have inside : ∀ {n i : Nat}, n ≤ peers.length → i < peers.length →
      (timerRun localPeerId peers n i).1.Nodup := fun hn hi => by
    rw [timerRun_jobs]
    exact ((nodup_visited hi).sublist (visited_sublist_of_le _ hn _)).filterMap
      fun _ _ _ hb hb' => jobAt_inj hnodup hb hb'
  by_cases hi : peerIndex < peers.length
  · exact inside hn hi
  · cases n with
    | zero => exact List.nodup_nil
    | succ m =>
      rw [timerRun_of_length_le (by omega)]
      exact inside (by omega) (by omega)

end Spacing

/-- Over a fixed non-empty index without repeated peers, from any `peer_index`, including one
past the end, `n + 1` consecutive iterations enqueue a job for every peer but the local one, and
`n` consecutive iterations enqueue no two jobs for one peer. -/
theorem timerRun_covers_each_once (localPeerId : WrappedPeerId) (peers : List WrappedPeerId)
    (hne : peers ≠ []) (hnodup : peers.Nodup) (peerIndex : Nat) :
    (∀ p ∈ peers, p ≠ localPeerId →
      p ∈ (timerRun localPeerId peers (peers.length + 1) peerIndex).1) ∧
    (timerRun localPeerId peers peers.length peerIndex).1.Nodup := by
  have hpos : 0 < peers.length := List.length_pos.mpr hne
  have covers : ∀ i < peers.length, ∀ p ∈ peers, p ≠ localPeerId →
      p ∈ (timerRun localPeerId peers peers.length i).1 := fun i hi p hp hpl => by
    obtain ⟨k, hk, rfl⟩ := List.getElem_of_mem hp
    rw [timerRun_jobs, List.mem_filterMap]
    exact ⟨k, mem_visited hi hk, jobAt_of_getElem hk hpl⟩
  refine ⟨fun p hp hpl => ?_, nodup_timerRun hnodup le_rfl peerIndex⟩
  by_cases hi : peerIndex < peers.length
  · have hp' := covers _ hi p hp hpl
    rw [timerRun_jobs] at hp' ⊢
    exact ((visited_sublist _ _ _).filterMap _).subset hp'
  · rw [timerRun_of_length_le (by omega)]
    exact covers 0 hpos p hp hpl

/-! ## The sleep quantum -/

/-- `peer_count as u32` keeps the low 32 bits of the count. -/
theorem toNat_ofNat_u32 (n : Nat) : (UInt32.ofNat n).toNat = n % 2 ^ 32 :=
  BitVec.toNat_ofNat _ _

/-- The quantum divides by zero exactly when the peer count is a multiple of `2^32`. -/
theorem quantumPanics_eq_true_iff (peerCount : Nat) :
    quantumPanics peerCount = true ↔ peerCount % 2 ^ 32 = 0 := by
  rw [quantumPanics, beq_iff_eq, ← toNat_ofNat_u32]
  exact ⟨fun h => h ▸ rfl, fun h => UInt32.toNat.inj h⟩

/-- Over a fixed known-peer map without repeated peers whose size is not a multiple of `2^32`,
from any `peer_index`, including one past the end, `n + 1` consecutive iterations of the loop
enqueue a job for every peer but the local one, and `n` consecutive iterations enqueue no two jobs
for one peer. -/
theorem executionLoop_covers_each_once (localPeerId : WrappedPeerId) (peers : List WrappedPeerId)
    (hnodup : peers.Nodup) (hcount : peers.length % 2 ^ 32 ≠ 0) (peerIndex : Nat) :
    (∀ p ∈ peers, p ≠ localPeerId → p ∈
      (executionLoop localPeerId (List.replicate (peers.length + 1) peers) peerIndex).1) ∧
    (executionLoop localPeerId (List.replicate peers.length peers) peerIndex).1.Nodup := by
  have hquantum : quantumPanics peers.length = false := by
    rw [← Bool.not_eq_true, quantumPanics_eq_true_iff]
    exact hcount
  have hne : peers ≠ [] := fun h => hcount (by simp [h])
  rw [executionLoop_replicate localPeerId peers hquantum,
    executionLoop_replicate localPeerId peers hquantum]
  exact timerRun_covers_each_once localPeerId peers hne hnodup peerIndex

/-- Two peers, the local one first, from a start past the end. -/
theorem executionLoop_covers_two_peers :
    ([⟨0⟩, ⟨1⟩] : List WrappedPeerId).Nodup ∧
    ([⟨0⟩, ⟨1⟩] : List WrappedPeerId).length % 2 ^ 32 ≠ 0 ∧
    (∀ p ∈ ([⟨0⟩, ⟨1⟩] : List WrappedPeerId), p ≠ ⟨0⟩ →
      p ∈ (executionLoop ⟨0⟩ (List.replicate 3 [⟨0⟩, ⟨1⟩]) 5).1) ∧
    (executionLoop ⟨0⟩ (List.replicate 2 [⟨0⟩, ⟨1⟩]) 5).1.Nodup :=
  ⟨by decide, by decide, executionLoop_covers_each_once ⟨0⟩ [⟨0⟩, ⟨1⟩] (by decide) (by decide) 5⟩

/-- A run of the loop panics exactly when it observes a known-peer map whose size is a multiple
of `2^32`; the first such iteration ends it. -/
theorem executionLoop_panics_iff (localPeerId : WrappedPeerId) :
    ∀ (observed : List (List WrappedPeerId)) (peerIndex : Nat),
      (executionLoop localPeerId observed peerIndex).2.2 = true ↔
        ∃ peers ∈ observed, peers.length % 2 ^ 32 = 0
  | [], _ => by simp [executionLoop]
  | peers :: observed, peerIndex => by
    rw [List.exists_mem_cons_iff, ← quantumPanics_eq_true_iff, executionLoop]
    by_cases h : quantumPanics peers.length = true
    · simp only [h, if_true, true_or]
    · rw [if_neg h, executionLoop_panics_iff localPeerId observed, or_iff_right h]

/-- Once every observed map holds at least one peer (the local one, after the network manager
registers it) and fewer than `2^32`, no iteration panics. -/
theorem executionLoop_no_panic {localPeerId : WrappedPeerId} {observed : List (List WrappedPeerId)}
    (hcount : ∀ peers ∈ observed, 0 < peers.length ∧ peers.length < 2 ^ 32) (peerIndex : Nat) :
    (executionLoop localPeerId observed peerIndex).2.2 = false := by
  rw [← Bool.not_eq_true, executionLoop_panics_iff]
  rintro ⟨peers, hmem, hzero⟩
  have := hcount peers hmem
  rw [Nat.mod_eq_of_lt this.2] at hzero
  omega

/-- Before the network manager adds the local peer, the timer can read an empty known-peer map:
its first iteration enqueues nothing and divides the wait period by zero, whatever it would
observe afterwards. -/
theorem executionLoop_empty_map_panics (localPeerId : WrappedPeerId)
    (observed : List (List WrappedPeerId)) (peerIndex : Nat) :
    executionLoop localPeerId ([] :: observed) peerIndex = ([], 0, true) :=
  rfl

/-! ## Executing the queued jobs -/

/-- Modelled from the spec: the gossip server handles each `ExecuteHeartbeat(p)` job with
`send_heartbeat(p)`, in queue order, each at the clock reading of its execution. -/
def executeHeartbeatJobs (jobs : List (WrappedPeerId × UInt64)) (s : HeartbeatState) : Outcome :=
  runEvents (jobs.map fun job => .sendHeartbeat job.1 job.2) s

section Jobs

variable {s s' : HeartbeatState} {p q : WrappedPeerId} {now : UInt64}

/-- `send_heartbeat` keeps the local peer. -/
theorem localPeerId_sendHeartbeat (h : sendHeartbeat p now s = .next s') :
    s'.localPeerId = s.localPeerId := by
  rcases sendHeartbeat_eq_next h with ⟨rfl, -⟩ | ⟨-, -, ⟨-, rfl⟩ | ⟨-, rfl⟩⟩ <;> rfl

/-- `send_heartbeat` changes the index at its recipient only. -/
theorem knownPeers_sendHeartbeat_of_ne (h : sendHeartbeat p now s = .next s') (hq : q ≠ p) :
    s'.knownPeers q = s.knownPeers q := by
  rcases sendHeartbeat_eq_next h with ⟨rfl, -⟩ | ⟨-, -, ⟨-, rfl⟩ | ⟨-, rfl⟩⟩
  · rfl
  · rfl
  · simp [removePeers, hq]

/-- `send_heartbeat` indexes no peer. -/
theorem knownPeers_sendHeartbeat (h : sendHeartbeat p now s = .next s')
    (hq : s.knownPeers q = none) : s'.knownPeers q = none := by
  by_cases hqp : q = p
  · subst hqp
    rcases sendHeartbeat_eq_next h with ⟨rfl, -⟩ | ⟨-, hsome, -⟩
    · exact hq
    · simp [hq] at hsome
  · rw [knownPeers_sendHeartbeat_of_ne h hqp, hq]

/-- `send_heartbeat` to a peer other than the local one that is not indexed sends the heartbeat,
then panics in the `unwrap` of `maybe_expire_peer`. -/
theorem sendHeartbeat_of_unknown (hq : q ≠ s.localPeerId) (hunk : s.knownPeers q = none)
    (now : UInt64) :
    sendHeartbeat q now s = .panicked { s with outbound := s.outbound ++ [.heartbeat q] } := by
  simp [sendHeartbeat, hq, maybeExpirePeer, hunk]

/-- Once a peer other than the local one is out of the index, any run of jobs that names it
panics. -/
theorem executeHeartbeatJobs_of_unknown {jobs : List (WrappedPeerId × UInt64)}
    (hq : q ≠ s.localPeerId) (hunk : s.knownPeers q = none) (hmem : q ∈ jobs.map Prod.fst) :
    ∃ s', executeHeartbeatJobs jobs s = .panicked s' := by
  induction jobs generalizing s with
  | nil => simp at hmem
  | cons job jobs ih =>
    simp only [executeHeartbeatJobs, List.map_cons, runEvents, HeartbeatEvent.step]
    by_cases hp : job.1 = q
    · rw [hp, sendHeartbeat_of_unknown hq hunk]
      exact ⟨_, rfl⟩
    · cases hs : sendHeartbeat job.1 job.2 s with
      | panicked s' => exact ⟨s', rfl⟩
      | next s' =>
        have hq' : q ≠ s'.localPeerId := by rw [localPeerId_sendHeartbeat hs]; exact hq
        have hmem' : q ∈ jobs.map Prod.fst := by simpa [Ne.symm hp] using hmem
        exact ih hq' (knownPeers_sendHeartbeat hs hunk) hmem'

/-- A job that expires its peer makes every later job for that peer panic, whatever jobs run
in between. -/
theorem executeHeartbeatJobs_after_expiry (hq : q ≠ s.localPeerId)
    (h : sendHeartbeat q now s = .next s') (hgone : s'.knownPeers q = none)
    {jobs : List (WrappedPeerId × UInt64)} (hmem : q ∈ jobs.map Prod.fst) :
    ∃ s'', executeHeartbeatJobs ((q, now) :: jobs) s = .panicked s'' := by
  have hq' : q ≠ s'.localPeerId := by rw [localPeerId_sendHeartbeat h]; exact hq
  simp only [executeHeartbeatJobs, List.map_cons, runEvents, HeartbeatEvent.step, h]
  exact executeHeartbeatJobs_of_unknown hq' hgone hmem

/-- `send_heartbeat` to the local peer or to an indexed one does not panic. -/
theorem sendHeartbeat_no_panic (hp : p = s.localPeerId ∨ s.knownPeers p ≠ none) (now : UInt64) :
    ∃ s', sendHeartbeat p now s = .next s' := by
  unfold sendHeartbeat
  split_ifs with hl
  · exact ⟨s, rfl⟩
  · obtain ⟨info, hinfo⟩ := Option.ne_none_iff_exists'.mp (hp.resolve_left hl)
    simp only [maybeExpirePeer, hinfo, Option.map_some']
    exact ⟨_, rfl⟩

/-- Jobs for distinct peers, each the local one or indexed, all run without a panic. -/
theorem executeHeartbeatJobs_no_panic {jobs : List (WrappedPeerId × UInt64)}
    (hnodup : (jobs.map Prod.fst).Nodup)
    (hjobs : ∀ p ∈ jobs.map Prod.fst, p = s.localPeerId ∨ s.knownPeers p ≠ none) :
    ∃ s', executeHeartbeatJobs jobs s = .next s' := by
  induction jobs generalizing s with
  | nil => exact ⟨s, rfl⟩
  | cons job jobs ih =>
    rw [List.map_cons, List.nodup_cons] at hnodup
    obtain ⟨s', hs⟩ := sendHeartbeat_no_panic (hjobs _ (List.mem_cons_self _ _)) job.2
    simp only [executeHeartbeatJobs, List.map_cons, runEvents, HeartbeatEvent.step, hs]
    refine ih hnodup.2 fun q hq => ?_
    have hne : q ≠ job.1 := fun h => hnodup.1 (h ▸ hq)
    rw [localPeerId_sendHeartbeat hs, knownPeers_sendHeartbeat_of_ne hs hne]
    exact hjobs q (List.mem_cons_of_mem _ hq)

end Jobs

/-- An executor that falls behind the timer by at most one period is safe: the jobs of at most
as many iterations as there are peers, run in order from a state where every peer of the index
is still indexed, never panic. -/
theorem executeHeartbeatJobs_timerRun_no_panic {s : HeartbeatState} {peers : List WrappedPeerId}
    (hnodup : peers.Nodup) (hindexed : ∀ p ∈ peers, s.knownPeers p ≠ none) {n : Nat}
    (hn : n ≤ peers.length) (peerIndex : Nat) {jobs : List (WrappedPeerId × UInt64)}
    (hjobs : jobs.map Prod.fst = (timerRun s.localPeerId peers n peerIndex).1) :
    ∃ s', executeHeartbeatJobs jobs s = .next s' := by
  refine executeHeartbeatJobs_no_panic ?_ fun p hp => ?_
  · rw [hjobs]
    exact nodup_timerRun hnodup hn peerIndex
  · rw [hjobs] at hp
    exact .inr (hindexed p (mem_of_mem_timerRun hp).1)

/-- The local peer `0` and peer `1`, both last heard from at time `0`. -/
def twoPeerBook : HeartbeatState :=
  ⟨⟨0⟩, fun q => if q.id < 2 then some ⟨q, 0, 0⟩ else none, LruCache.empty, [], decimalPeerId⟩

/-- Over the index `[0, 1]` of `twoPeerBook`, the timer's first two periods enqueue two jobs for
peer `1`; run at time `7`, the first expires peer `1` and the second panics. -/
theorem heartbeatJobs_second_panics :
    (timerRun ⟨0⟩ [⟨0⟩, ⟨1⟩] 4 0).1 = [⟨1⟩, ⟨1⟩] ∧
    (∃ s₁, sendHeartbeat ⟨1⟩ 7 twoPeerBook = .next s₁ ∧ s₁.knownPeers ⟨1⟩ = none) ∧
    ∃ s', executeHeartbeatJobs ((timerRun ⟨0⟩ [⟨0⟩, ⟨1⟩] 4 0).1.map fun p => (p, 7)) twoPeerBook =
      .panicked s' := by
  have hexp := sendHeartbeat_of_stale (by decide : (⟨1⟩ : WrappedPeerId) ≠ twoPeerBook.localPeerId)
    (rfl : twoPeerBook.knownPeers ⟨1⟩ = some ⟨⟨1⟩, 0, 0⟩)
    (by decide : ¬(7 : UInt64) - 0 < heartbeatFailureMs / 1000)
  have hjobs : (timerRun ⟨0⟩ [⟨0⟩, ⟨1⟩] 4 0).1 = [⟨1⟩, ⟨1⟩] := rfl
  refine ⟨hjobs, ⟨_, hexp, rfl⟩, ?_⟩
  rw [hjobs]
  exact executeHeartbeatJobs_after_expiry (by decide) hexp rfl (by simp)

/-- Over the index `[0, 1]` of `twoPeerBook`, the jobs of the timer's first two periods, run at
time `7`, do not panic. -/
theorem executeHeartbeatJobs_timerRun_twoPeerBook :
    let peers : List WrappedPeerId := [⟨0⟩, ⟨1⟩]
    let jobs := (timerRun twoPeerBook.localPeerId peers 2 0).1.map fun p => (p, (7 : UInt64))
    peers.Nodup ∧ (∀ p ∈ peers, twoPeerBook.knownPeers p ≠ none) ∧ 2 ≤ peers.length ∧
      jobs.map Prod.fst = (timerRun twoPeerBook.localPeerId peers 2 0).1 ∧
      ∃ s', executeHeartbeatJobs jobs twoPeerBook = .next s' := by
  intro peers jobs
  have hnodup : peers.Nodup := by decide
  have hindexed : ∀ p ∈ peers, twoPeerBook.knownPeers p ≠ none := by decide
  have hjobs : jobs.map Prod.fst = (timerRun twoPeerBook.localPeerId peers 2 0).1 := by
    simp only [jobs, List.map_map]
    exact List.map_id _
  exact ⟨hnodup, hindexed, le_rfl, hjobs,
    executeHeartbeatJobs_timerRun_no_panic hnodup hindexed le_rfl 0 hjobs⟩

end Renegade.Gossip
