import DocComment.Proofs.Pool.Progress

/-! The life of a job in a pool of workers: accepted while the pool is up, taken once and in order, run to
its end before the pool is shut down, and reported with the result of its task. -/
namespace DocComment.Crew

variable {crew after : Crew α}

/-- What a move does to the jobs: nothing, or it accepts one while the pool is up, or takes the first. -/
theorem Move.jobs (move : Move crew after) :
    (after.accepted = crew.accepted ∧ after.taken = crew.taken) ∨
    (crew.shutDown = false ∧ ∃ task, after.accepted = crew.accepted ++ [task] ∧
      after.taken = crew.taken) ∨
    ∃ job rest, crew.queue = job :: rest ∧ after.accepted = crew.accepted ∧
      after.taken = crew.taken ++ [job] := by
  cases move with
  | step step =>
    cases step with
    | look _ =>
      unfold Crew.look
      split
      · rename_i job rest first
        exact .inr (.inr ⟨job, rest, first, rfl, rfl⟩)
      · exact .inl ⟨rfl, rfl⟩
    | finish _ =>
      unfold Crew.finish
      dsimp only
      split <;> exact .inl ⟨rfl, rfl⟩
    | submit _ =>
      unfold Crew.submit
      split
      · exact .inl ⟨rfl, rfl⟩
      · rename_i up
        exact .inr (.inl ⟨Bool.eq_false_iff.mpr up, _, rfl, rfl⟩)
    | close _ =>
      unfold Crew.close
      split <;> exact .inl ⟨rfl, rfl⟩
    | announce | announceInVain | dismiss => exact .inl ⟨rfl, rfl⟩
  | stir stir => cases stir <;> exact .inl ⟨rfl, rfl⟩
  | arrival arrival => cases arrival <;> exact .inl ⟨rfl, rfl⟩

/-- A pool stays shut down, and it is shut down only while it is idle. -/
theorem Move.shutDown (move : Move crew after) :
    after.shutDown = crew.shutDown ∨ after.shutDown = true ∧ crew.isIdle = true := by
  cases move with
  | step step =>
    cases step with
    | look _ =>
      unfold Crew.look
      split <;> exact .inl rfl
    | finish _ =>
      unfold Crew.finish
      dsimp only
      split <;> exact .inl rfl
    | submit _ =>
      unfold Crew.submit
      split <;> exact .inl rfl
    | close _ =>
      unfold Crew.close
      split
      · rename_i idle
        exact .inr ⟨rfl, idle⟩
      · exact .inl rfl
    | announce | announceInVain | dismiss => exact .inl rfl
  | stir stir => cases stir <;> exact .inl rfl
  | arrival arrival => cases arrival <;> exact .inl rfl

/-- A worker that turns to something else than to leave has not left. -/
theorem exited_of_set {workers : List Worker} {worker : Nat} {new : Worker}
    (left : (workers.set position new)[worker]? = some .exited) (stays : new ≠ .exited) :
    workers[worker]? = some .exited := by
  rw [List.getElem?_set] at left
  split at left
  · split at left
    · exact absurd (Option.some.inj left) stays
    · cases left
  · exact left

/-- Only a worker that looks for a job leaves, and only without one to take. -/
theorem Move.exited (move : Move crew after) {worker : Nat}
    (left : after.workers[worker]? = some .exited) :
    crew.workers[worker]? = some .exited ∨ crew.queue = [] := by
  cases move with
  | step step =>
    cases step with
    | look _ =>
      unfold Crew.look at left
      split at left
      · exact .inl (exited_of_set left nofun)
      · rename_i empty
        exact .inr empty
    | finish _ =>
      unfold Crew.finish at left
      dsimp only at left
      split at left <;> exact .inl (exited_of_set left nofun)
    | submit _ =>
      unfold Crew.submit at left
      split at left <;> exact .inl left
    | announce _ _ => exact .inl (exited_of_set left nofun)
    | announceInVain _ _ => exact .inl left
    | close _ =>
      unfold Crew.close at left
      split at left <;> exact .inl left
    | dismiss _ =>
      rw [List.getElem?_map] at left
      obtain ⟨old, found, same⟩ := Option.map_eq_some_iff.mp left
      rw [Worker.notified_eq_exited same] at found
      exact .inl found
  | stir stir =>
    cases stir with
    | worker _ => exact .inl (exited_of_set left nofun)
    | call _ => exact .inl left
  | arrival arrival => cases arrival <;> exact .inl left

/-- In an idle pool every accepted job is finished. -/
theorem Ledger.finished_of_idle (ledger : Ledger crew) (empty : crew.queue = [])
    (none : crew.inFlight = 0) : crew.finished.Perm (List.range crew.accepted.length) := by
  have numbered := ledger.numbered
  have carried := ledger.carried
  rw [empty, List.append_nil] at numbered
  rw [ledger.counted, List.length_eq_zero_iff] at none
  rw [none, List.append_nil, numbered] at carried
  exact carried.symm

/-- A handle reports the result of its own task or nothing yet. -/
theorem Ledger.report (ledger : Ledger crew) (accepted : crew.accepted[job]? = some task) :
    crew.report? job = none ∨ crew.report? job = some task.result := by
  unfold report?
  rw [accepted, Option.bind_some]
  by_cases done : job ∈ crew.finished
  · right
    rw [if_pos (List.contains_iff_mem.mpr done)]
  · left
    rw [if_neg (mt List.contains_iff_mem.mp done), if_neg]
    intro all
    obtain ⟨worker, member⟩ := List.exists_mem_of_ne_nil _ ledger.staffed
    have left := List.all_eq_true.mp all worker member
    rw [beq_iff_eq] at left
    subst left
    obtain ⟨empty, none⟩ := ledger.idle (ledger.left member)
    obtain ⟨inside, _⟩ := List.getElem?_eq_some_iff.mp accepted
    exact done ((ledger.finished_of_idle empty none).mem_iff.mpr (List.mem_range.mpr inside))

end DocComment.Crew
