import DocComment.Proofs.Pool.Ledger

/-! Waiting in a pool of workers. Whoever waits for a notice waits for something that is still to come:
no worker is forgotten while there is work, no call while the pool is busy, and no worker when the pool is
shut down. Every move of a run keeps this. -/
namespace DocComment.Crew

variable {crew after : Crew α}

/-- Workers and calls that wait are not forgotten. -/
structure Attended (crew : Crew α) : Prop where
  work : crew.queue ≠ [] →
    (∃ worker ∈ crew.workers, worker ≠ .parked) ∨ ∃ job, .announcing job ∈ crew.calls
  idle : .waiting ∈ crew.calls → crew.queue ≠ [] ∨ 0 < crew.inFlight
  dismissal : crew.shutDown = true → .parked ∈ crew.workers → .dismissing ∈ crew.calls

theorem start_attended (pool : Pool) : Attended (start (α := α) pool) :=
  ⟨fun queued => absurd rfl queued, nofun, nofun⟩

theorem Attended.look (attended : Attended crew) (seeking : crew.workers[worker]? = some .seeking) :
    Attended (crew.look worker) := by
  unfold Crew.look
  split
  · rename_i job rest first
    refine ⟨fun _ => .inl ⟨_, mem_set_self seeking _, nofun⟩, fun _ => .inr (Nat.succ_pos _), ?_⟩
    intro shut member
    rcases List.mem_or_eq_of_mem_set member with before | same
    · exact attended.dismissal shut before
    · cases same
  · rename_i empty
    refine ⟨fun queued => absurd empty queued, attended.idle, fun shut member => ?_⟩
    rcases List.mem_or_eq_of_mem_set member with before | same
    · exact attended.dismissal shut before
    · rw [if_pos shut] at same
      cases same

theorem Attended.finish (attended : Attended crew)
    (busy : crew.workers[worker]? = some (.running job)) : Attended (crew.finish worker job) := by
  have parked (member : .parked ∈ crew.workers.set worker .seeking) : .parked ∈ crew.workers := by
    rcases List.mem_or_eq_of_mem_set member with before | same
    · exact before
    · cases same
  have free : .seeking ∈ crew.workers.set worker .seeking := mem_set_self busy _
  unfold Crew.finish
  dsimp only
  split
  · refine ⟨fun _ => .inl ⟨_, free, nofun⟩, fun waiting => ?_, fun shut member => ?_⟩
    · obtain ⟨call, _, same⟩ := List.mem_map.mp waiting
      cases call <;> cases same
    · exact List.mem_map.mpr ⟨_, attended.dismissal shut (parked member), rfl⟩
  · rename_i busyStill
    refine ⟨fun _ => .inl ⟨_, free, nofun⟩, fun _ => ?_, fun shut member => ?_⟩
    · exact busy_of_not_idle busyStill
    · exact attended.dismissal shut (parked member)

theorem Attended.submit (attended : Attended crew)
    (submitting : crew.calls[call]? = some (.submitting task)) : Attended (crew.submit call task) := by
  unfold Crew.submit
  split
  · refine ⟨fun queued => ?_, fun waiting => ?_, fun shut parked => ?_⟩
    · refine (attended.work queued).imp id fun ⟨job, announcing⟩ => ?_
      exact ⟨job, mem_set_of_ne submitting announcing nofun _⟩
    · rcases List.mem_or_eq_of_mem_set waiting with before | same
      · exact attended.idle before
      · cases same
    · exact mem_set_of_ne submitting (attended.dismissal shut parked) nofun _
  · rename_i shut
    refine ⟨fun _ => .inr ⟨_, mem_set_self submitting _⟩, fun _ => .inl (by simp), fun now => ?_⟩
    exact absurd now shut

theorem Attended.close (attended : Attended crew) (closing : crew.calls[call]? = some .closing) :
    Attended (crew.close call) := by
  have announced (job : Nat) (new : Call α) (announcing : .announcing job ∈ crew.calls) :
      .announcing job ∈ crew.calls.set call new :=
    mem_set_of_ne closing announcing nofun _
  unfold Crew.close
  split
  · refine ⟨fun queued => ?_, fun waiting => ?_, fun _ _ => mem_set_self closing _⟩
    · exact (attended.work queued).imp id fun ⟨job, announcing⟩ => ⟨job, announced job _ announcing⟩
    · rcases List.mem_or_eq_of_mem_set waiting with before | same
      · exact attended.idle before
      · cases same
  · rename_i busy
    refine ⟨fun queued => ?_, fun _ => ?_, fun shut parked => ?_⟩
    · exact (attended.work queued).imp id fun ⟨job, announcing⟩ => ⟨job, announced job _ announcing⟩
    · exact busy_of_not_idle busy
    · exact mem_set_of_ne closing (attended.dismissal shut parked) nofun _

/-- A worker that starts to look is at hand for whatever is queued. -/
theorem Attended.rouse (attended : Attended crew) (found : crew.workers[worker]? = some old)
    {calls : List (Call α)} (waiting : .waiting ∈ calls → .waiting ∈ crew.calls)
    (dismissing : .dismissing ∈ crew.calls → .dismissing ∈ calls) :
    Attended { crew with calls, workers := crew.workers.set worker .seeking } := by
  refine ⟨fun _ => .inl ⟨_, mem_set_self found _, nofun⟩, fun member => attended.idle (waiting member), ?_⟩
  intro shut member
  rcases List.mem_or_eq_of_mem_set member with before | same
  · exact dismissing (attended.dismissal shut before)
  · cases same

/-- A notice of work that reaches nobody is not needed: not all workers wait. -/
theorem Attended.announceInVain (attended : Attended crew) (ledger : Ledger crew)
    (busy : .parked ∉ crew.workers) :
    Attended { crew with calls := crew.calls.set call (.accepted job) } := by
  refine ⟨fun _ => .inl ?_, fun waiting => ?_, fun _ parked => absurd parked busy⟩
  · obtain ⟨worker, present⟩ := List.exists_mem_of_ne_nil _ ledger.staffed
    exact ⟨worker, present, fun parked => busy (parked ▸ present)⟩
  · rcases List.mem_or_eq_of_mem_set waiting with before | same
    · exact attended.idle before
    · cases same

theorem Attended.dismiss (attended : Attended crew) (ledger : Ledger crew) :
    Attended
      { crew with
        calls := crew.calls.set call .closed
        workers := crew.workers.map Worker.notified } := by
  refine ⟨fun _ => .inl ?_, fun waiting => ?_, fun _ parked => ?_⟩
  · obtain ⟨worker, present⟩ := List.exists_mem_of_ne_nil _ ledger.staffed
    exact ⟨_, List.mem_map_of_mem present, worker.notified_ne_parked⟩
  · rcases List.mem_or_eq_of_mem_set waiting with before | same
    · exact attended.idle before
    · cases same
  · obtain ⟨worker, _, same⟩ := List.mem_map.mp parked
    exact absurd same worker.notified_ne_parked

theorem Attended.move (attended : Attended crew) (ledger : Ledger crew) (move : Move crew after) :
    Attended after := by
  cases move with
  | step step =>
    cases step with
    | look seeking => exact attended.look seeking
    | finish busy => exact attended.finish busy
    | submit submitting => exact attended.submit submitting
    | announce announcing parked =>
      refine attended.rouse parked (fun waiting => ?_) fun dismissing => ?_
      · exact (List.mem_or_eq_of_mem_set waiting).resolve_right nofun
      · exact mem_set_of_ne announcing dismissing nofun _
    | announceInVain _ busy => exact attended.announceInVain ledger busy
    | close closing => exact attended.close closing
    | dismiss _ => exact attended.dismiss ledger
  | stir stir =>
    cases stir with
    | worker parked => exact attended.rouse parked id id
    | call waiting =>
      refine ⟨fun queued => ?_, fun still => ?_, fun shut parked => ?_⟩
      · refine (attended.work queued).imp id fun ⟨job, announcing⟩ => ?_
        exact ⟨job, mem_set_of_ne waiting announcing nofun _⟩
      · exact attended.idle ((List.mem_or_eq_of_mem_set still).resolve_right nofun)
      · exact mem_set_of_ne waiting (attended.dismissal shut parked) nofun _
  | arrival arrival =>
    have grown {call : Call α} (other : .waiting ≠ call) :
        Attended { crew with calls := crew.calls ++ [call] } := by
      refine ⟨fun queued => ?_, fun waiting => ?_, fun shut parked => ?_⟩
      · refine (attended.work queued).imp id fun ⟨job, announcing⟩ => ?_
        exact ⟨job, List.mem_append_left _ announcing⟩
      · rcases List.mem_append.mp waiting with before | new
        · exact attended.idle before
        · exact absurd (List.mem_singleton.mp new) other
      · exact List.mem_append_left _ (attended.dismissal shut parked)
    cases arrival with
    | task => exact grown nofun
    | shutDown => exact grown nofun

theorem Reached.attended (reached : Reached (.threaded threads) crew) : Attended crew := by
  induction reached with
  | start => exact start_attended _
  | move before move ih => exact ih.move before.ledger move

end DocComment.Crew
