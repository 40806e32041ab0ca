import DocComment.Proofs.Pool.Wakeup
import Mathlib.Algebra.Ring.Nat
import Mathlib.Data.Prod.Lex

/-! Progress of a pool of workers. The steps between two calls come to an end, and they end only when all
accepted jobs are done, no call is left waiting and, if the pool is shut down, all workers have left. -/
namespace DocComment

/-- Steps that a worker brings about by its job, and by looking for one. -/
def Worker.jobEffort : Worker → Nat
  | .running _ => 1
  | _ => 0

def Worker.lookEffort : Worker → Nat
  | .seeking => 1
  | _ => 0

/-- A task to be handed in counts for the job it may become: one step each to queue, take and finish. -/
def Call.jobEffort : Call α → Nat
  | .submitting _ => 3
  | _ => 0

/-- The notices to be given, and the change of the pool before one of them. -/
def Call.noticeEffort : Call α → Nat
  | .closing | .waiting => 2
  | .announcing _ | .dismissing => 1
  | _ => 0

def Call.lookEffort : Call α → Nat
  | .closing => 1
  | _ => 0

theorem sum_set {entries : List α} {old : α} (found : entries[position]? = some old) (new : α)
    (weight : α → Nat) : ((entries.set position new).map weight).sum + weight old =
      (entries.map weight).sum + weight new := by
  obtain ⟨before, after, parts, changed⟩ := exists_set found
  rw [changed, parts]
  simp only [List.map_append, List.map_cons, List.sum_append, List.sum_cons]
  omega

theorem sum_map_same {entries : List α} {change : α → α} {weight : α → Nat}
    (same : ∀ entry, weight (change entry) = weight entry) :
    ((entries.map change).map weight).sum = (entries.map weight).sum := by
  rw [List.map_map]
  exact congrArg List.sum (List.map_congr_left fun entry _ => same entry)

namespace Crew

variable {crew after : Crew α}

def jobEffort (crew : Crew α) : Nat :=
  (crew.workers.map Worker.jobEffort).sum + (crew.calls.map Call.jobEffort).sum + 2 * crew.queue.length

def noticeEffort (crew : Crew α) : Nat :=
  (crew.calls.map Call.noticeEffort).sum

def lookEffort (crew : Crew α) : Nat :=
  (crew.workers.map Worker.lookEffort).sum + (crew.calls.map Call.lookEffort).sum

/-- What is still to be done: first the jobs, since a finished one may wake up calls, then the notices,
since one may wake up workers, then the looks. -/
def effort (crew : Crew α) : Nat ×ₗ Nat ×ₗ Nat :=
  toLex (crew.jobEffort, toLex (crew.noticeEffort, crew.lookEffort))

theorem effort_lt_iff : after.effort < crew.effort ↔
    after.jobEffort < crew.jobEffort ∨ after.jobEffort = crew.jobEffort ∧
      (after.noticeEffort < crew.noticeEffort ∨
        after.noticeEffort = crew.noticeEffort ∧ after.lookEffort < crew.lookEffort) := by
  simp only [effort, Prod.Lex.toLex_lt_toLex]

theorem effort_look (seeking : crew.workers[worker]? = some .seeking) :
    (crew.look worker).effort < crew.effort := by
  rw [effort_lt_iff]
  unfold Crew.look
  split
  · rename_i job rest first
    have jobs := sum_set seeking (.running job) Worker.jobEffort
    left
    simp only [jobEffort, first, List.length_cons, Worker.jobEffort] at jobs ⊢
    omega
  · rename_i empty
    generalize new : (if crew.shutDown then Worker.exited else .parked) = turned
    have idle : turned.jobEffort = 0 ∧ turned.lookEffort = 0 := by
      rw [← new]
      split <;> exact ⟨rfl, rfl⟩
    have jobs := sum_set seeking turned Worker.jobEffort
    have looks := sum_set seeking turned Worker.lookEffort
    rw [idle.1] at jobs
    rw [idle.2] at looks
    right
    refine ⟨?_, .inr ⟨rfl, ?_⟩⟩
    · simp only [jobEffort, Worker.jobEffort] at jobs ⊢
      omega
    · simp only [lookEffort, Worker.lookEffort] at looks ⊢
      omega

theorem effort_finish (busy : crew.workers[worker]? = some (.running job)) :
    (crew.finish worker job).effort < crew.effort := by
  have workers := sum_set busy .seeking Worker.jobEffort
  have calls : ((crew.calls.map Call.notified).map Call.jobEffort).sum =
      (crew.calls.map Call.jobEffort).sum :=
    sum_map_same fun call => by cases call <;> rfl
  rw [effort_lt_iff]
  left
  unfold Crew.finish
  dsimp only
  split
  · simp only [jobEffort, Worker.jobEffort, calls] at workers ⊢
    omega
  · simp only [jobEffort, Worker.jobEffort] at workers ⊢
    omega

theorem effort_submit (submitting : crew.calls[call]? = some (.submitting task)) :
    (crew.submit call task).effort < crew.effort := by
  rw [effort_lt_iff]
  left
  unfold Crew.submit
  split
  · have calls := sum_set submitting .refused Call.jobEffort
    simp only [jobEffort, Call.jobEffort] at calls ⊢
    omega
  · have calls := sum_set submitting (.announcing crew.accepted.length) Call.jobEffort
    simp only [jobEffort, Call.jobEffort, List.length_append, List.length_singleton] at calls ⊢
    omega

theorem effort_close (closing : crew.calls[call]? = some .closing) :
    (crew.close call).effort < crew.effort := by
  rw [effort_lt_iff]
  right
  unfold Crew.close
  split
  · have jobs := sum_set closing .dismissing Call.jobEffort
    have notices := sum_set closing .dismissing Call.noticeEffort
    refine ⟨?_, .inl ?_⟩
    · simp only [jobEffort, Call.jobEffort] at jobs ⊢
      omega
    · simp only [noticeEffort, Call.noticeEffort] at notices ⊢
      omega
  · have jobs := sum_set closing .waiting Call.jobEffort
    have notices := sum_set closing .waiting Call.noticeEffort
    have looks := sum_set closing .waiting Call.lookEffort
    refine ⟨?_, .inr ⟨?_, ?_⟩⟩
    · simp only [jobEffort, Call.jobEffort] at jobs ⊢
      omega
    · simp only [noticeEffort, Call.noticeEffort] at notices ⊢
      omega
    · simp only [lookEffort, Call.lookEffort] at looks ⊢
      omega

/-- A call that gives its notice and returns, whatever workers the notice reaches. -/
theorem effort_notify {old new : Call α} {workers : List Worker} (found : crew.calls[call]? = some old)
    (jobs : new.jobEffort = old.jobEffort) (less : new.noticeEffort < old.noticeEffort)
    (same : (workers.map Worker.jobEffort).sum = (crew.workers.map Worker.jobEffort).sum) :
    effort { crew with calls := crew.calls.set call new, workers } < crew.effort := by
  have calls := sum_set found new Call.jobEffort
  have notices := sum_set found new Call.noticeEffort
  rw [effort_lt_iff]
  refine .inr ⟨?_, .inl ?_⟩
  · simp only [jobEffort, same]
    omega
  · simp only [noticeEffort]
    omega

theorem effort_step (step : Step crew after) : after.effort < crew.effort := by
  cases step with
  | look seeking => exact effort_look seeking
  | finish busy => exact effort_finish busy
  | submit submitting => exact effort_submit submitting
  | announce announcing parked =>
    exact effort_notify announcing rfl Nat.one_pos (sum_set parked .seeking Worker.jobEffort)
  | announceInVain announcing _ => exact effort_notify announcing rfl Nat.one_pos rfl
  | close closing => exact effort_close closing
  | dismiss dismissing =>
    exact effort_notify dismissing rfl Nat.one_pos (sum_map_same fun worker => by cases worker <;> rfl)

/-- There is no endless run of steps: without new calls, and without threads that stop waiting for no
reason, a pool comes to rest. -/
theorem steps_end : WellFounded fun after crew : Crew α => Step crew after :=
  Subrelation.wf effort_step (InvImage.wf effort wellFounded_lt)

/-- No thread can make a step. -/
def AtRest (crew : Crew α) : Prop :=
  ∀ after, ¬ Step crew after

theorem AtRest.worker (rest : AtRest crew) {worker : Worker} (member : worker ∈ crew.workers) :
    worker = .parked ∨ worker = .exited := by
  obtain ⟨position, found⟩ := List.getElem?_of_mem member
  cases worker with
  | seeking => exact absurd (.look found) (rest _)
  | running job => exact absurd (.finish found) (rest _)
  | parked => exact .inl rfl
  | exited => exact .inr rfl

/-- A call at rest has returned or waits until the pool is idle. -/
theorem AtRest.call (rest : AtRest crew) {call : Call α} (member : call ∈ crew.calls) :
    call = .waiting ∨ (∃ job, call = .accepted job) ∨ call = .refused ∨ call = .closed := by
  obtain ⟨position, found⟩ := List.getElem?_of_mem member
  cases call with
  | submitting task => exact absurd (.submit found) (rest _)
  | announcing job =>
    by_cases parked : .parked ∈ crew.workers
    · obtain ⟨worker, waits⟩ := List.getElem?_of_mem parked
      exact absurd (.announce found waits) (rest _)
    · exact absurd (.announceInVain found parked) (rest _)
  | accepted job => exact .inr (.inl ⟨job, rfl⟩)
  | refused => exact .inr (.inr (.inl rfl))
  | closing => exact absurd (.close found) (rest _)
  | waiting => exact .inl rfl
  | dismissing => exact absurd (.dismiss found) (rest _)
  | closed => exact .inr (.inr (.inr rfl))

theorem AtRest.running_eq_nil (rest : AtRest crew) : crew.running = [] := by
  refine List.filterMap_eq_nil_iff.mpr fun worker member => ?_
  rcases rest.worker member with rfl | rfl <;> rfl

theorem AtRest.queue_eq_nil (rest : AtRest crew) (ledger : Ledger crew) (attended : Attended crew) :
    crew.queue = [] := by
  by_contra queued
  rcases attended.work queued with ⟨worker, member, busy⟩ | ⟨job, announcing⟩
  · obtain rfl := (rest.worker member).resolve_left busy
    exact queued (ledger.idle (ledger.left member)).1
  · rcases rest.call announcing with same | ⟨_, same⟩ | same | same <;> cases same

/-- How a pool is when it has come to rest. -/
structure Done (crew : Crew α) : Prop where
  taken : crew.taken = List.range crew.accepted.length
  finished : crew.finished.Perm (List.range crew.accepted.length)
  returned : ∀ call ∈ crew.calls, (∃ job, call = .accepted job) ∨ call = .refused ∨ call = .closed
  dismissed : crew.shutDown = true → ∀ worker ∈ crew.workers, worker = .exited

theorem AtRest.done (rest : AtRest crew) (ledger : Ledger crew) (attended : Attended crew) :
    Done crew := by
  have empty := rest.queue_eq_nil ledger attended
  have none := rest.running_eq_nil
  have taken : crew.taken = List.range crew.accepted.length := by
    have numbered := ledger.numbered
    rw [empty, List.append_nil] at numbered
    exact numbered
  refine ⟨taken, ?_, fun call member => ?_, fun shut worker member => ?_⟩
  · have carried := ledger.carried
    rw [none, List.append_nil, taken] at carried
    exact carried.symm
  · refine (rest.call member).resolve_left fun waiting => ?_
    subst waiting
    rcases attended.idle member with queued | busy
    · exact queued empty
    · rw [ledger.counted, none] at busy
      exact absurd busy (Nat.lt_irrefl 0)
  · refine (rest.worker member).resolve_left fun parked => ?_
    subst parked
    rcases rest.call (attended.dismissal shut member) with same | ⟨_, same⟩ | same | same <;> cases same

/-- No notice is lost. While a job is queued, a worker is up or a notice of work is to come; a call waits
only while the pool is busy; in a pool that is shut down workers wait only while a notice to all is to
come. So a step can be made while a job is queued or a call to shut down has not returned, and no run of
such steps is endless. -/
theorem Reached.wakeups_kept (reached : Reached (.threaded threads) crew) :
    (crew.queue ≠ [] → (∃ worker ∈ crew.workers, worker ≠ .parked ∧ worker ≠ .exited) ∨
      ∃ job, .announcing job ∈ crew.calls) ∧
    (.waiting ∈ crew.calls → crew.queue ≠ [] ∨ 0 < crew.inFlight) ∧
    (crew.shutDown = true → .parked ∈ crew.workers → .dismissing ∈ crew.calls) ∧
    (crew.queue ≠ [] ∨ .waiting ∈ crew.calls ∨ .closing ∈ crew.calls ∨ .dismissing ∈ crew.calls →
      ∃ after, Step crew after) ∧
    Acc (fun after crew => Step crew after) crew := by
  have ledger := reached.ledger
  have attended := reached.attended
  refine ⟨fun queued => ?_, attended.idle, attended.dismissal, fun waits => ?_, steps_end.apply crew⟩
  · refine (attended.work queued).imp (fun ⟨worker, member, up⟩ => ⟨worker, member, up, ?_⟩) id
    intro exited
    subst exited
    exact queued (ledger.idle (ledger.left member)).1
  · by_contra stuck
    have rest : AtRest crew := fun after step => stuck ⟨after, step⟩
    have done := rest.done ledger attended
    have returned {call : Call α} (member : call ∈ crew.calls)
        (away : call = .waiting ∨ call = .closing ∨ call = .dismissing) : False := by
      rcases done.returned call member with ⟨_, rfl⟩ | rfl | rfl <;>
        rcases away with same | same | same <;> cases same
    rcases waits with queued | waiting | closing | dismissing
    · exact queued (rest.queue_eq_nil ledger attended)
    · exact returned waiting (.inl rfl)
    · exact returned closing (.inr (.inl rfl))
    · exact returned dismissing (.inr (.inr rfl))

/-- The only worker waits while a task has just been queued, and a call to shut down waits for it. -/
def lateCrew : Crew Unit :=
  { workers := [.parked]
    calls := [.announcing 0, .waiting]
    queue := [0]
    accepted := [⟨.returned (), []⟩] }

theorem lateCrew_reached : Reached (.threaded 1) lateCrew := by
  let task : TaskRun Unit := ⟨.returned (), []⟩
  have seeking : (start (α := Unit) (.threaded 1)).workers[0]? = some .seeking := rfl
  have parked : Reached (.threaded 1) ({ workers := [.parked] } : Crew Unit) :=
    .move .start (.step (.look seeking))
  have called : Reached (.threaded 1) { workers := [.parked], calls := [.submitting task] } :=
    parked.move (.arrival (.task _ task))
  have submitting : [Call.submitting task][0]? = some (.submitting task) := rfl
  have queued := called.move (.step (.submit submitting))
  have closed : Reached (.threaded 1)
      { workers := [.parked], calls := [.announcing 0, .closing], queue := [0], accepted := [task] } :=
    queued.move (.arrival (.shutDown _))
  have closing : [Call.announcing 0, .closing][1]? = some (.closing (α := Unit)) := rfl
  have waits := closed.move (.step (.close closing))
  exact waits

theorem wakeups_kept_late : Reached (.threaded 1) lateCrew ∧ lateCrew.queue ≠ [] ∧
    .waiting ∈ lateCrew.calls ∧ (∃ job, .announcing job ∈ lateCrew.calls) ∧
      ∃ after, Step lateCrew after := by
  obtain ⟨work, _, _, moves, _⟩ := lateCrew_reached.wakeups_kept
  have queued : lateCrew.queue ≠ [] := nofun
  refine ⟨lateCrew_reached, queued, .tail _ (.head _), (work queued).resolve_left ?_, moves (.inl queued)⟩
  rintro ⟨worker, member, up, _⟩
  exact up (List.mem_singleton.mp member)

end Crew

end DocComment
