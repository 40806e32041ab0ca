import DocComment.Pool.Workers
import Mathlib.Data.List.Basic

/-! The books of a pool of workers: the jobs taken and the jobs queued are all jobs accepted, in this
order, and those taken are finished or running. Every move of a run keeps them. -/
namespace DocComment

open scoped List

theorem exists_set {entries : List α} (found : entries[position]? = some old) :
    ∃ before after, entries = before ++ old :: after ∧
      ∀ new, entries.set position new = before ++ new :: after := by
  obtain ⟨inside, rfl⟩ := List.getElem?_eq_some_iff.mp found
  refine ⟨entries.take position, entries.drop (position + 1), ?_, fun new => ?_⟩
  · rw [← List.drop_eq_getElem_cons inside, List.take_append_drop]
  · exact List.set_eq_take_append_cons_drop .. |>.trans (if_pos inside)

/-- What was there stays, unless it was at the place that is set. -/
theorem mem_set_of_ne {entries : List α} (found : entries[position]? = some old)
    (member : entry ∈ entries) (other : entry ≠ old) (new : α) : entry ∈ entries.set position new := by
  obtain ⟨before, after, parts, changed⟩ := exists_set found
  rw [parts] at member
  rw [changed]
  rcases List.mem_append.mp member with early | late
  · exact List.mem_append_left _ early
  · exact List.mem_append_right _ (List.mem_cons_of_mem _ (List.mem_of_ne_of_mem other late))

theorem mem_set_self {entries : List α} (found : entries[position]? = some old) (new : α) :
    new ∈ entries.set position new :=
  List.mem_set (List.getElem?_eq_some_iff.mp found).1 new

namespace Worker

theorem job?_notified (worker : Worker) : worker.notified.job? = worker.job? := by
  cases worker <;> rfl

theorem notified_ne_parked (worker : Worker) : worker.notified ≠ .parked := by
  cases worker <;> nofun

theorem notified_eq_exited {worker : Worker} (left : worker.notified = .exited) : worker = .exited := by
  cases worker <;> first | rfl | cases left

end Worker

namespace Crew

variable {crew after : Crew α}

/-- The running jobs, when one worker goes on to something else. -/
theorem running_set {workers : List Worker} {old : Worker} (found : workers[worker]? = some old)
    (new : Worker) :
    (old.job?.toList ++ (workers.set worker new).filterMap Worker.job?).Perm
      (new.job?.toList ++ workers.filterMap Worker.job?) := by
  obtain ⟨before, after, parts, changed⟩ := exists_set found
  have split (middle : Worker) : (before ++ middle :: after).filterMap Worker.job? =
      before.filterMap Worker.job? ++ (middle.job?.toList ++ after.filterMap Worker.job?) := by
    cases job : middle.job? <;> simp [job]
  rw [changed, parts, split, split]
  generalize before.filterMap Worker.job? = earlier, after.filterMap Worker.job? = later
  calc old.job?.toList ++ (earlier ++ (new.job?.toList ++ later))
      ~ old.job?.toList ++ (new.job?.toList ++ (earlier ++ later)) :=
        (List.perm_append_comm_assoc ..).append_left _
    _ ~ new.job?.toList ++ (old.job?.toList ++ (earlier ++ later)) := List.perm_append_comm_assoc ..
    _ ~ new.job?.toList ++ (earlier ++ (old.job?.toList ++ later)) :=
        (List.perm_append_comm_assoc ..).append_left _

/-- A worker with a job is one of those counted. -/
theorem mem_running {worker : Nat} (busy : crew.workers[worker]? = some (.running job)) :
    job ∈ crew.running :=
  List.mem_filterMap.mpr ⟨_, List.mem_of_getElem? busy, rfl⟩

theorem isIdle_iff : crew.isIdle = true ↔ crew.queue = [] ∧ crew.inFlight = 0 := by
  simp [isIdle]

theorem busy_of_not_idle (busy : ¬ crew.isIdle = true) : crew.queue ≠ [] ∨ 0 < crew.inFlight := by
  rw [isIdle_iff, not_and_or] at busy
  exact busy.imp id Nat.pos_of_ne_zero

structure Ledger (crew : Crew α) : Prop where
  numbered : crew.taken ++ crew.queue = List.range crew.accepted.length
  carried : crew.taken.Perm (crew.finished ++ crew.running)
  counted : crew.inFlight = crew.running.length
  idle : crew.shutDown = true → crew.queue = [] ∧ crew.inFlight = 0
  left : .exited ∈ crew.workers → crew.shutDown = true
  staffed : crew.workers ≠ []

theorem start_ledger (threads : Nat) : Ledger (start (α := α) (.threaded threads)) := by
  have none : (List.replicate (max 1 threads) Worker.seeking).filterMap Worker.job? = [] := by
    simp [List.filterMap_eq_nil_iff, Worker.job?]
  refine ⟨rfl, ?_, ?_, nofun, fun left => ?_, ?_⟩
  · exact .of_eq (none.symm.trans (List.nil_append _).symm)
  · exact (congrArg List.length none).symm
  · cases List.eq_of_mem_replicate left
  · simp [start, Pool.threaded]

/-- Calls and workers that only look, wait or leave do not touch the books. -/
theorem Ledger.rearrange (ledger : Ledger crew) (calls : List (Call α)) {workers : List Worker}
    (same : (workers.filterMap Worker.job?).Perm crew.running)
    (left : .exited ∈ workers → crew.shutDown = true) (staffed : workers ≠ []) :
    Ledger { crew with calls, workers } where
  numbered := ledger.numbered
  carried := ledger.carried.trans (same.symm.append_left _)
  counted := ledger.counted.trans same.length_eq.symm
  idle := ledger.idle
  left := left
  staffed := staffed

/-- One worker without a job turns to something that is no job either. -/
theorem Ledger.turn (ledger : Ledger crew) (calls : List (Call α)) {old new : Worker}
    (found : crew.workers[worker]? = some old) (free : old.job? = none) (still : new.job? = none)
    (left : new = .exited → crew.shutDown = true) :
    Ledger { crew with calls, workers := crew.workers.set worker new } := by
  refine ledger.rearrange calls ?_ (fun member => ?_) ?_
  · have same := running_set found new
    rw [free, still] at same
    exact same
  · rcases List.mem_or_eq_of_mem_set member with before | same
    · exact ledger.left before
    · exact left same.symm
  · simpa [List.set_eq_nil_iff] using ledger.staffed

theorem Ledger.calls (ledger : Ledger crew) (calls : List (Call α)) : Ledger { crew with calls } :=
  ledger.rearrange calls (List.Perm.refl _) ledger.left ledger.staffed

theorem Ledger.look (ledger : Ledger crew) (seeking : crew.workers[worker]? = some .seeking) :
    Ledger (crew.look worker) := by
  unfold Crew.look
  split
  · rename_i job rest first
    have moved := running_set seeking (.running job)
    refine ⟨?_, ?_, ?_, fun shut => ?_, fun member => ?_, ?_⟩
    · have numbered := ledger.numbered
      rw [first] at numbered
      simpa using numbered
    · have step : (crew.taken ++ [job]).Perm (crew.finished ++ (job :: crew.running)) :=
        calc crew.taken ++ [job]
            ~ job :: crew.taken := List.perm_append_singleton ..
          _ ~ job :: (crew.finished ++ crew.running) := ledger.carried.cons _
          _ ~ crew.finished ++ (job :: crew.running) := List.perm_middle.symm
      exact step.trans (moved.symm.append_left _)
    · have longer := moved.length_eq
      simp only [Worker.job?, Option.toList_none, Option.toList_some, List.nil_append,
        List.singleton_append, List.length_cons] at longer
      show crew.inFlight + 1 = _
      rw [ledger.counted]
      exact longer.symm
    · obtain ⟨empty, _⟩ := ledger.idle shut
      rw [empty] at first
      cases first
    · rcases List.mem_or_eq_of_mem_set member with before | same
      · exact ledger.left before
      · cases same
    · simpa [List.set_eq_nil_iff] using ledger.staffed
  · by_cases shut : crew.shutDown = true
    · rw [if_pos shut]
      exact ledger.turn _ seeking rfl rfl fun _ => shut
    · rw [if_neg shut]
      exact ledger.turn _ seeking rfl rfl nofun

/-- The counter is not zero when a worker takes its job off it. -/
theorem Ledger.inFlight_pos (ledger : Ledger crew) {worker : Nat}
    (busy : crew.workers[worker]? = some (.running job)) : 0 < crew.inFlight := by
  rw [ledger.counted]
  exact List.length_pos_of_mem (mem_running busy)

theorem Ledger.finish (ledger : Ledger crew) (busy : crew.workers[worker]? = some (.running job)) :
    Ledger (crew.finish worker job) := by
  have moved : (job :: (crew.workers.set worker .seeking).filterMap Worker.job?).Perm crew.running :=
    running_set busy .seeking
  have booked : Ledger { crew with
      inFlight := crew.inFlight - 1
      finished := crew.finished ++ [job]
      workers := crew.workers.set worker .seeking } := by
    refine ⟨ledger.numbered, ?_, ?_, fun shut => ?_, fun member => ?_, ?_⟩
    · calc crew.taken
          ~ crew.finished ++ crew.running := ledger.carried
        _ ~ crew.finished ++ (job :: _) := moved.symm.append_left _
        _ ~ crew.finished ++ [job] ++ (crew.workers.set worker .seeking).filterMap Worker.job? :=
          .of_eq (List.append_cons ..)
    · have shorter := moved.length_eq
      rw [List.length_cons, ← ledger.counted] at shorter
      exact Nat.sub_eq_of_eq_add shorter.symm
    · have none := (ledger.idle shut).2
      have some := ledger.inFlight_pos busy
      omega
    · rcases List.mem_or_eq_of_mem_set member with before | same
      · exact ledger.left before
      · cases same
    · simpa [List.set_eq_nil_iff] using ledger.staffed
  unfold Crew.finish
  dsimp only
  split
  · exact booked.calls _
  · exact booked

theorem Ledger.submit (ledger : Ledger crew) (call : Nat) (task : TaskRun α) :
    Ledger (crew.submit call task) := by
  unfold Crew.submit
  split
  · exact ledger.calls _
  · rename_i shut
    refine ⟨?_, ledger.carried, ledger.counted, fun now => absurd now shut, ledger.left, ledger.staffed⟩
    rw [List.length_append, List.length_singleton, List.range_succ, ← ledger.numbered]
    exact (List.append_assoc ..).symm

theorem Ledger.close (ledger : Ledger crew) (call : Nat) : Ledger (crew.close call) := by
  unfold Crew.close
  split
  · rename_i idle
    exact ⟨ledger.numbered, ledger.carried, ledger.counted, fun _ => isIdle_iff.mp idle,
      fun _ => rfl, ledger.staffed⟩
  · exact ledger.calls _

theorem Ledger.step (ledger : Ledger crew) (step : Step crew after) : Ledger after := by
  cases step with
  | look seeking => exact ledger.look seeking
  | finish busy => exact ledger.finish busy
  | submit _ => exact ledger.submit _ _
  | announce _ parked => exact ledger.turn _ parked rfl rfl nofun
  | announceInVain _ _ => exact ledger.calls _
  | close _ => exact ledger.close _
  | dismiss _ =>
    refine ledger.rearrange _ ?_ (fun member => ?_) ?_
    · rw [List.filterMap_map]
      exact .of_eq (List.filterMap_congr fun worker _ => worker.job?_notified)
    · obtain ⟨worker, present, left⟩ := List.mem_map.mp member
      exact ledger.left (Worker.notified_eq_exited left ▸ present)
    · simpa using ledger.staffed

theorem Ledger.move (ledger : Ledger crew) (move : Move crew after) : Ledger after := by
  cases move with
  | step step => exact ledger.step step
  | stir stir =>
    cases stir with
    | worker parked => exact ledger.turn _ parked rfl rfl nofun
    | call _ => exact ledger.calls _
  | arrival arrival =>
    cases arrival with
    | task => exact ledger.calls _
    | shutDown => exact ledger.calls _

/-- The books are right in every run, whatever the number of workers. -/
theorem Reached.ledger (reached : Reached (.threaded threads) crew) : Ledger crew := by
  induction reached with
  | start => exact start_ledger threads
  | move _ move ih => exact ih.move move

end Crew

end DocComment
