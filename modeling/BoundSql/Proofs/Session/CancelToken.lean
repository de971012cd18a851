import BoundSql.Session.CancelToken

/-!
# No cancellation is missed

Systems whose parts take their steps in any order are run by giving the parts turns. A turn is a
step where one can be taken, and is skipped where none can. What every step keeps is therefore kept
by every turn, and by a run of any length.

A task enables its notification before it looks at the flag, and a call that cancels sets the flag
before it wakes the notifications. A task that finds the flag clear therefore has its notification
enabled by the time that a call wakes them, and a task that enables one later finds the flag set.
Once a call that cancels is gone, no task is left without a wake-up, and every task is gone after
four more steps of its own.
-/

namespace BoundSql.Turn

variable {σ μ : Type} {step : σ → μ → Option σ} {P : σ → Prop} {s : σ} {m : μ}

/-- A turn keeps what its step, if there is one, keeps. -/
theorem keeps (hs : P s) (hstep : ∀ t, step s m = some t → P t) : P ((step s m).getD s) := by
  cases hmove : step s m with
  | none => exact hs
  | some t => exact hstep t hmove

/-- A run of turns keeps what every step keeps. -/
theorem run_keeps (hstep : ∀ {s t m}, P s → step s m = some t → P t) (hs : P s) (moves : List μ) :
    P (moves.foldl (fun s m => (step s m).getD s) s) := by
  induction moves generalizing s with
  | nil => exact hs
  | cons m rest ih => exact ih (keeps hs fun _ hmove => hstep hs hmove)

end BoundSql.Turn

namespace BoundSql.CancelToken

variable {s t u : State} {w v : Waiter} {i : Nat}

/-- Whether a task has found the flag clear, with a notification that nobody has woken since. -/
def Waiter.isUnwoken : Waiter → Bool
  | .parking woken | .parked woken => !woken
  | _ => false

/-- How many steps a task has in front of it, once the flag is set and its notification woken. -/
def Waiter.remaining : Waiter → Nat
  | .entering => 2
  | .enabled _ => 1
  | .parking _ => 4
  | .parked _ => 3
  | .returned => 0

/-- A woken notification leaves no task without a wake-up. -/
@[simp] theorem Waiter.isUnwoken_notified (w : Waiter) : w.notified.isUnwoken = false := by
  cases w with
  | _ => rfl

/-- Waking a notification does not take a step for the task. -/
@[simp] theorem Waiter.remaining_notified (w : Waiter) : w.notified.remaining = w.remaining := by
  cases w with
  | _ => rfl

/-- Waking the notifications sends no task away. -/
@[simp] theorem Waiter.notified_eq_returned {w : Waiter} :
    w.notified = .returned ↔ w = .returned := by
  cases w with
  | _ => simp [Waiter.notified]

/-- A task goes away when it finds the flag set, and only then. -/
theorem Waiter.cancelled_of_step_returned {cancelled : Bool}
    (h : w.step cancelled = some .returned) : cancelled = true := by
  cases w with
  | enabled woken =>
    cases cancelled with
    | true => rfl
    | false => cases h
  | parked woken => cases woken <;> cases h
  | _ => cases h

/-- A task that finds the flag set is never left without a wake-up, unless it was before. -/
theorem Waiter.isUnwoken_step (h : w.step true = some v) (hw : w.isUnwoken = false) :
    v.isUnwoken = false := by
  cases w with
  | entering | enabled woken => cases h; rfl
  | parking woken => cases h; exact hw
  | parked woken => cases woken <;> cases h; rfl
  | returned => cases h

/-- A task that finds the flag set, or is on its way to it, comes nearer to its end by each step. -/
theorem Waiter.remaining_lt_of_step (h : w.step true = some v) : v.remaining < w.remaining := by
  cases w with
  | entering | enabled woken | parking woken => cases h; simp [Waiter.remaining]
  | parked woken => cases woken <;> cases h; simp [Waiter.remaining]
  | returned => cases h

/-- A task can go on until it is gone, unless it is left without a wake-up. -/
theorem Waiter.exists_step (hw : w.isUnwoken = false) (hbusy : w ≠ .returned) :
    ∃ v, w.step true = some v := by
  cases w with
  | parked woken =>
    cases woken with
    | true => exact ⟨.entering, rfl⟩
    | false => cases hw
  | returned => exact absurd rfl hbusy
  | _ => exact ⟨_, rfl⟩

/-- A task with no step in front of it is gone. -/
theorem Waiter.eq_returned (h : w.remaining = 0) : w = .returned := by
  cases w with
  | returned => rfl
  | _ => cases h

/-- No task has more than four steps in front of it. -/
theorem Waiter.remaining_le_four (w : Waiter) : w.remaining ≤ 4 := by
  cases w with
  | _ => simp [Waiter.remaining]

/-- What can happen in one step. -/
inductive Step (s : State) : State → Prop where
  /-- A waiting task takes a step. -/
  | waiter {i : Nat} {w v : Waiter} : s.waiters[i]? = some w → w.step s.cancelled = some v →
      Step s { s with waiters := s.waiters.set i v }
  /-- A call sets the flag. -/
  | flag {i : Nat} : s.cancellers[i]? = some .entering →
      Step s { s with cancelled := true, cancellers := s.cancellers.set i .flagged }
  /-- A call wakes the notifications. -/
  | wake {i : Nat} : s.cancellers[i]? = some .flagged →
      Step s { s with
        waiters := s.waiters.map Waiter.notified
        cancellers := s.cancellers.set i .finished }

/-- Every step is one of those. -/
theorem State.step_cases {m : Move} (h : s.step m = some u) : Step s u := by
  cases m with
  | waiter i =>
    obtain ⟨w, hw, hrest⟩ := Option.bind_eq_some_iff.mp h
    obtain ⟨v, hv, hu⟩ := Option.bind_eq_some_iff.mp hrest
    cases hu
    exact .waiter hw hv
  | canceller i =>
    simp only [State.step] at h
    split at h
    · rename_i hentering
      cases h
      exact .flag hentering
    · rename_i hflagged
      cases h
      exact .wake hflagged
    · cases h

/-- What every step keeps, the whole run keeps. -/
theorem Reachable.keeps {P : State → Prop} (hstep : ∀ {s u}, P s → Step s u → P u)
    (h : Reachable s t) (hs : P s) : P t := by
  induction h with
  | refl => exact hs
  | step _ hmove ih => exact hstep ih (State.step_cases hmove)

/-- A run of moves leads to a state that can be reached. -/
theorem State.reachable_run (s : State) (moves : List Move) : Reachable s (s.run moves) :=
  Turn.run_keeps Reachable.step .refl moves

/-- What holds of a token with all who wait for it and all who cancel it. -/
structure Sound (s : State) : Prop where
  /-- The flag is set when a call that cancels has set it. -/
  flag : s.cancelled = true ↔ ∃ c ∈ s.cancellers, c ≠ .entering
  /-- A task that is gone has found the flag set. -/
  gone : .returned ∈ s.waiters → s.cancelled = true
  /-- Once a call that cancels is gone, no task is left without a wake-up. -/
  woken : .finished ∈ s.cancellers → ∀ w ∈ s.waiters, w.isUnwoken = false

/-- Nothing has happened at the start. -/
theorem sound_start (waiters cancellers : Nat) : Sound (State.start waiters cancellers) where
  flag := by simp [State.start, List.mem_replicate]
  gone := by simp [State.start, List.mem_replicate]
  woken := by simp [State.start, List.mem_replicate]

/-- The flag is set while a call that has set it is there. -/
theorem Sound.cancelled (h : Sound s) {c : Canceller} (hmem : c ∈ s.cancellers)
    (hc : c ≠ .entering) : s.cancelled = true :=
  h.flag.mpr ⟨c, hmem, hc⟩

/-- A step of a task keeps a token sound. What matters is a task that finds the flag clear: no call
that cancels is gone then. -/
theorem Sound.waiter (h : Sound s) (hw : s.waiters[i]? = some w)
    (hv : w.step s.cancelled = some v) : Sound { s with waiters := s.waiters.set i v } where
  flag := h.flag
  gone := by
    intro hmem
    rcases List.mem_or_eq_of_mem_set hmem with hmem | rfl
    · exact h.gone hmem
    · exact Waiter.cancelled_of_step_returned hv
  woken := by
    intro hfinished other hmem
    rcases List.mem_or_eq_of_mem_set hmem with hmem | rfl
    · exact h.woken hfinished other hmem
    · have hset : s.cancelled = true := h.cancelled hfinished (by decide)
      rw [hset] at hv
      exact Waiter.isUnwoken_step hv (h.woken hfinished w (List.mem_of_getElem? hw))

/-- Setting the flag keeps a token sound. -/
theorem Sound.setFlag (h : Sound s) (hcaller : s.cancellers[i]? = some .entering) :
    Sound { s with cancelled := true, cancellers := s.cancellers.set i .flagged } where
  flag := by
    have hi := (List.getElem?_eq_some_iff.mp hcaller).1
    exact iff_of_true rfl ⟨.flagged, List.mem_set hi _, by decide⟩
  gone := fun _ => rfl
  woken := by
    intro hfinished
    rcases List.mem_or_eq_of_mem_set hfinished with hfinished | heq
    · exact h.woken hfinished
    · cases heq

/-- Waking the notifications keeps a token sound. -/
theorem Sound.wake (h : Sound s) (hcaller : s.cancellers[i]? = some .flagged) :
    Sound { s with
      waiters := s.waiters.map Waiter.notified
      cancellers := s.cancellers.set i .finished } where
  flag := by
    have hi := (List.getElem?_eq_some_iff.mp hcaller).1
    have hset := h.cancelled (List.mem_of_getElem? hcaller) (by decide)
    exact iff_of_true hset ⟨.finished, List.mem_set hi _, by decide⟩
  gone := by
    intro hmem
    obtain ⟨w, hw, heq⟩ := List.mem_map.mp hmem
    exact h.gone (Waiter.notified_eq_returned.mp heq ▸ hw)
  woken := by
    intro _ w hmem
    obtain ⟨v, -, rfl⟩ := List.mem_map.mp hmem
    exact v.isUnwoken_notified

/-- Every step keeps a token sound. -/
theorem Sound.step (h : Sound s) (hstep : Step s u) : Sound u := by
  cases hstep with
  | waiter hw hv => exact h.waiter hw hv
  | flag hcaller => exact h.setFlag hcaller
  | wake hcaller => exact h.wake hcaller

/-- Every state that a token comes to is sound. -/
theorem Reachable.sound {waiters cancellers : Nat}
    (h : Reachable (State.start waiters cancellers) s) : Sound s :=
  h.keeps Sound.step (sound_start waiters cancellers)

/-- Every step leaves as many tasks as there were. -/
theorem Step.length_waiters (hstep : Step s u) : u.waiters.length = s.waiters.length := by
  cases hstep with
  | waiter _ _ => exact List.length_set
  | flag _ => rfl
  | wake _ => exact List.length_map _

/-- There are always as many tasks as at the start. -/
theorem Reachable.length_waiters {waiters cancellers : Nat}
    (h : Reachable (State.start waiters cancellers) s) : s.waiters.length = waiters :=
  h.keeps (fun hv hstep => hstep.length_waiters.trans hv) List.length_replicate

/-- No step clears the flag. -/
theorem Step.cancelled (hstep : Step s u) (hset : s.cancelled = true) : u.cancelled = true := by
  cases hstep with
  | waiter _ _ => exact hset
  | flag _ => rfl
  | wake _ => exact hset

/-- No step brings a call back that is gone. -/
theorem Step.finished (hstep : Step s u) (hfinished : .finished ∈ s.cancellers) :
    .finished ∈ u.cancellers := by
  have hkept {i : Nat} {c d : Canceller} (hc : s.cancellers[i]? = some c) (hne : c ≠ .finished) :
      .finished ∈ s.cancellers.set i d := by
    obtain ⟨j, hj⟩ := List.mem_iff_getElem?.mp hfinished
    have hij : i ≠ j := by
      rintro rfl
      exact hne (Option.some.inj (hc.symm.trans hj))
    exact List.mem_of_getElem? ((List.getElem?_set_ne hij).trans hj)
  cases hstep with
  | waiter _ _ => exact hfinished
  | flag hcaller => exact hkept hcaller (by decide)
  | wake hcaller => exact hkept hcaller (by decide)

/-- Once the flag is set, no step takes a task further from its end. -/
theorem Step.remaining_le (hstep : Step s u) (hset : s.cancelled = true)
    (hw : s.waiters[i]? = some w) :
    ∃ v, u.waiters[i]? = some v ∧ v.remaining ≤ w.remaining := by
  have hi := (List.getElem?_eq_some_iff.mp hw).1
  cases hstep with
  | @waiter j w' v hw' hv =>
    by_cases hsame : j = i
    · subst hsame
      obtain rfl : w' = w := Option.some.inj (hw'.symm.trans hw)
      rw [hset] at hv
      exact ⟨v, List.getElem?_set_self hi, Nat.le_of_lt (Waiter.remaining_lt_of_step hv)⟩
    · exact ⟨w, (List.getElem?_set_ne hsame).trans hw, Nat.le_refl _⟩
  | flag _ => exact ⟨w, hw, Nat.le_refl _⟩
  | wake _ => exact ⟨w.notified, by simp [hw], by simp⟩

/-- Once a call that cancels is gone, each turn of a task takes it nearer to its end. -/
theorem Sound.remaining_turn (h : Sound s) (hfinished : .finished ∈ s.cancellers)
    (hw : s.waiters[i]? = some w) :
    ∃ v, ((s.step (.waiter i)).getD s).waiters[i]? = some v ∧ v.remaining ≤ w.remaining - 1 := by
  have hi := (List.getElem?_eq_some_iff.mp hw).1
  have hset : s.cancelled = true := h.cancelled hfinished (by decide)
  by_cases hgone : w = .returned
  · subst hgone
    have hnone : s.step (.waiter i) = none := by simp [State.step, hw, Waiter.step]
    rw [hnone]
    exact ⟨.returned, hw, Nat.le_refl _⟩
  · obtain ⟨v, hv⟩ := Waiter.exists_step (h.woken hfinished w (List.mem_of_getElem? hw)) hgone
    have hsome : s.step (.waiter i) = some { s with waiters := s.waiters.set i v } := by
      simp [State.step, hw, hset, hv]
    rw [hsome]
    exact ⟨v, List.getElem?_set_self hi, Nat.le_sub_one_of_lt (Waiter.remaining_lt_of_step hv)⟩

/-- Once a call that cancels is gone, a task comes nearer to its end by every turn of its own,
whatever steps the others take in between. -/
theorem Sound.remaining_run (h : Sound s) (hfinished : .finished ∈ s.cancellers)
    (hw : s.waiters[i]? = some w) (moves : List Move) :
    ∃ v, (s.run moves).waiters[i]? = some v ∧
      v.remaining ≤ w.remaining - moves.count (.waiter i) := by
  induction moves generalizing s w with
  | nil => exact ⟨w, hw, Nat.le_refl _⟩
  | cons m rest ih =>
    have hnext : Sound ((s.step m).getD s) ∧ .finished ∈ ((s.step m).getD s).cancellers := by
      refine Turn.keeps (P := fun t : State => Sound t ∧ .finished ∈ t.cancellers)
        ⟨h, hfinished⟩ ?_
      intro u hmove
      have hstep := State.step_cases hmove
      exact ⟨h.step hstep, hstep.finished hfinished⟩
    by_cases hsame : m = .waiter i
    · subst hsame
      obtain ⟨v, hv, hless⟩ := h.remaining_turn hfinished hw
      obtain ⟨x, hx, hrest⟩ := ih hnext.1 hnext.2 hv
      refine ⟨x, hx, ?_⟩
      rw [List.count_cons_self]
      omega
    · have hturn : ∃ v, ((s.step m).getD s).waiters[i]? = some v ∧ v.remaining ≤ w.remaining := by
        refine Turn.keeps
          (P := fun t : State => ∃ v, t.waiters[i]? = some v ∧ v.remaining ≤ w.remaining)
          ⟨w, hw, Nat.le_refl _⟩ ?_
        intro u hmove
        exact (State.step_cases hmove).remaining_le (h.cancelled hfinished (by decide)) hw
      obtain ⟨v, hv, hle⟩ := hturn
      obtain ⟨x, hx, hrest⟩ := ih hnext.1 hnext.2 hv
      refine ⟨x, hx, ?_⟩
      rw [List.count_cons_of_ne hsame]
      omega

/-- However the steps of any number of tasks and of any number of calls that cancel fall together:
a task is gone only if the flag is set, which is the work of a call that cancels. Once it is set,
the flag is never cleared. Once a call that cancels is gone, no task is parked without a wake-up,
and every task is gone after four more turns of its own. -/
theorem no_cancellation_missed (waiters cancellers : Nat) (s : State)
    (h : Reachable (State.start waiters cancellers) s) :
    (.returned ∈ s.waiters → s.cancelled = true) ∧
      (s.cancelled = true → (∃ c ∈ s.cancellers, c ≠ .entering) ∧
        ∀ u, Reachable s u → u.cancelled = true) ∧
      (.finished ∈ s.cancellers → .parked false ∉ s.waiters ∧
        ∀ moves i, i < waiters → 4 ≤ moves.count (.waiter i) →
          (s.run moves).waiters[i]? = some .returned) := by
  have hsound := h.sound
  refine ⟨hsound.gone, fun hset => ⟨hsound.flag.mp hset, fun u hlater => ?_⟩, fun hfinished => ?_⟩
  · exact hlater.keeps (fun hv hstep => hstep.cancelled hv) hset
  · refine ⟨fun hmem => ?_, fun moves i hi hturns => ?_⟩
    · exact Bool.noConfusion (hsound.woken hfinished _ hmem)
    · have hlength := h.length_waiters
      have hw : s.waiters[i]? = some s.waiters[i] := List.getElem?_eq_getElem (by omega)
      obtain ⟨v, hv, hremaining⟩ := hsound.remaining_run hfinished hw moves
      have hbound := Waiter.remaining_le_four s.waiters[i]
      have hgone : v = .returned := Waiter.eq_returned (by omega)
      rw [hv, hgone]

/-- A task finds the flag clear and parks between the two steps of a call that cancels, and another
one comes while the call is on its way. -/
def overlap : List Move :=
  [.waiter 0, .waiter 0, .canceller 0, .waiter 0, .waiter 1, .canceller 0]

/-- The task that has parked in between is woken, and it is gone after four more turns. -/
theorem no_cancellation_missed_overlap :
    Reachable (State.start 2 1) ((State.start 2 1).run overlap) ∧
      (State.start 2 1).run overlap = ⟨true, [.parked true, .enabled true], [.finished]⟩ ∧
      ∀ moves, 4 ≤ moves.count (.waiter 0) →
        (((State.start 2 1).run overlap).run moves).waiters[0]? = some .returned := by
  have hreach := (State.start 2 1).reachable_run overlap
  have hsafe := no_cancellation_missed 2 1 _ hreach
  have hfinished : .finished ∈ ((State.start 2 1).run overlap).cancellers := by decide
  refine ⟨hreach, by decide, fun moves hturns => ?_⟩
  exact (hsafe.2.2 hfinished).2 moves 0 (by decide) hturns

end BoundSql.CancelToken
