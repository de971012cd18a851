import BoundSql.Proofs.Session.Stream

/-!
# Streams whose reader breaks off

A reader that breaks off reports nothing: it is gone, like a reader that has come to the end of the
rows. Whether the receiver hears of it depends on the watcher alone. A watcher that has found a
reason to stop goes on to report it; one that is still watching finds the reader gone, and leaves
in silence.
-/

namespace BoundSql

namespace Stream

variable {σ ι : Type} {s t u : State σ ι} {job : Job σ ι (Except Error Nat)} {m : Move}
variable {items : List ι}

/-! ## Who may do what -/

/-- Only the watcher changes where it stands. -/
theorem State.step_watcher_eq (h : s.step m = some u) (hm : m ≠ .watcher) :
    u.watcher = s.watcher := by
  cases m with
  | watcher => exact absurd rfl hm
  | cancel =>
    cases h
    rfl
  | expire =>
    obtain ⟨limit, -, rfl⟩ := Option.map_eq_some_iff.mp h
    rfl
  | receive =>
    simp only [State.step] at h
    split at h
    · cases h
    · cases h
      rfl
  | reader =>
    simp only [State.step, State.readerStep] at h
    split at h
    · exact (State.jobStep_frame h).1
    · cases h
      rfl
    · obtain ⟨v, hsend, rfl⟩ := Option.map_eq_some_iff.mp h
      rw [State.send_eq_some hsend]
    · cases h

/-- What a watching watcher turns to: it leaves only a reader that has ended, and finds a reason to
stop only while the reader has not. -/
theorem State.step_watching (hwatcher : s.watcher = .watching) (h : s.step m = some u) :
    u.watcher = .watching ∨ (s.reader = .ended ∧ u.watcher = .ended) ∨
      (s.reader ≠ .ended ∧ ∃ reason, u.watcher = .stopping reason) := by
  by_cases hm : m = .watcher
  · subst hm
    simp only [State.step, State.watcherStep, hwatcher] at h
    split at h
    · rename_i hended
      cases h
      exact .inr (.inl ⟨Reader.eq_ended hended, rfl⟩)
    · rename_i hended
      have hreader : s.reader ≠ .ended := by
        intro hno
        rw [hno] at hended
        exact hended rfl
      split at h
      · cases h
        exact .inr (.inr ⟨hreader, .cancelled, rfl⟩)
      · split at h
        · obtain ⟨limit, -, rfl⟩ := Option.map_eq_some_iff.mp h
          exact .inr (.inr ⟨hreader, .timeout limit, rfl⟩)
        · cases h
  · exact .inl ((State.step_watcher_eq h hm).trans hwatcher)

/-- No step sets a reader to work. -/
theorem Step.running (h : Step s u) (hreader : u.reader = .running job) :
    ∃ before, s.reader = .running before := by
  cases h with
  | job hrunning _ => exact ⟨_, hrunning⟩
  | interrupt _ hrunning => exact ⟨_, hrunning⟩
  | readerHalts _ =>
    simp only at hreader
    split at hreader
    · cases hreader
    · cases hreader
  | readerSends _ => cases hreader
  | _ => exact ⟨job, hreader⟩

/-! ## While the reader is at work -/

/-- A stream that has sent these items and nothing else. -/
abbrev Delivered (items : List ι) (s : State σ ι) : Prop :=
  Sent items ⟨items, false⟩ none s

/-- A job sends nothing but items. -/
theorem State.jobStep_delivered (hsent : Delivered items s) (h : s.jobStep job = some u) :
    ∃ items, Delivered items u := by
  cases job with
  | wait next => cases h
  | hand item next =>
    obtain ⟨v, hsend, rfl⟩ := Option.map_eq_some_iff.mp h
    obtain rfl := State.send_eq_some hsend
    refine ⟨items ++ [item], ?_, List.prefix_rfl, nofun⟩
    have hbehind := congrArg (· ++ [Except.ok item]) hsent.sent_eq
    simpa using hbehind
  | done result =>
    cases result with
    | ok n =>
      cases h
      exact ⟨items, hsent.sent_eq, List.prefix_rfl, nofun⟩
    | error e =>
      cases h
      exact ⟨items, hsent.sent_eq, List.prefix_rfl, nofun⟩
  | _ =>
    cases h
    exact ⟨items, hsent.sent_eq, List.prefix_rfl, nofun⟩

/-- Where a watcher stands beside a reader at work: it has not left, and with a reason to stop it is
the one that will report it. -/
def Watcher.Attends (good : Error → Prop) (halted : Bool) : Watcher → Prop
  | .watching => halted = false
  | .stopping reason => good reason ∧ halted = false
  | .interrupting reason reported => good reason ∧ reported = false ∧ halted = true
  | .reporting _ => False
  | .ended => False

/-- A good reason stays one. -/
theorem Watcher.Attends.mono {good good' : Error → Prop} {halted : Bool} {w : Watcher}
    (h : w.Attends good halted) (hgood : ∀ e, good e → good' e) : w.Attends good' halted := by
  cases w with
  | stopping reason => exact h.imp_left (hgood reason)
  | interrupting reason reported => exact h.imp_left (hgood reason)
  | _ => exact h

/-- A stream on which only the watcher may have had a reason to stop. -/
structure Working (s : State σ ι) : Prop where
  /-- Only items have been sent. -/
  delivered : ∃ items, Delivered items s
  /-- The watcher is there. -/
  watcher : s.watcher.Attends (Justified s.token s.limit s.expired) s.halted

/-- A reader at work goes on, or leaves the stream as it is. -/
theorem Working.step (h : Working s) (hreader : s.reader = .running job)
    (hmove : s.step m = some u) : Working u := by
  have hstep := State.step_cases hmove
  have hgood (e : Error) (he : Justified s.token s.limit s.expired e) := hstep.justified he
  obtain ⟨⟨items, hsent⟩, hwatcher⟩ := h
  cases hstep with
  | job hrunning hjob =>
    obtain ⟨hsame, hmark, -⟩ := State.jobStep_frame hjob
    refine ⟨State.jobStep_delivered hsent hjob, ?_⟩
    rw [hsame, hmark]
    exact hwatcher.mono hgood
  | readerHalts hfailed | readerSends hfailed =>
    rw [hreader] at hfailed
    cases hfailed
  | watcherLeaves hwatching =>
    -- the reader has not ended
    rcases State.step_watching hwatching hmove with hno | ⟨hno, -⟩ | ⟨-, reason, hno⟩
    · cases hno
    · rw [hreader] at hno
      cases hno
    · cases hno
  | noticeCancel hwatching htoken =>
    rw [hwatching] at hwatcher
    exact ⟨⟨items, hsent.keep rfl rfl id⟩, .cancelled htoken, hwatcher⟩
  | noticeDeadline hwatching hexpired hlimit =>
    rw [hwatching] at hwatcher
    exact ⟨⟨items, hsent.keep rfl rfl id⟩, .timeout hlimit hexpired, hwatcher⟩
  | watcherHalts hstopping =>
    rw [hstopping] at hwatcher
    exact ⟨⟨items, hsent.keep rfl rfl id⟩, hwatcher.1, hwatcher.2, rfl⟩
  | interrupt _ _ => exact ⟨⟨items, hsent.keep rfl rfl id⟩, hwatcher⟩
  | unwound _ hended =>
    rw [hreader] at hended
    cases hended
  | watcherSends hreporting =>
    rw [hreporting] at hwatcher
    exact hwatcher.elim
  | cancel => exact ⟨⟨items, hsent.keep rfl rfl fun _ => rfl⟩, hwatcher.mono hgood⟩
  | expire => exact ⟨⟨items, hsent.keep rfl rfl id⟩, hwatcher.mono hgood⟩
  | receive hchannel => exact ⟨⟨items, hsent.receive hchannel⟩, hwatcher⟩
  | idle => exact ⟨⟨items, hsent⟩, hwatcher⟩

/-- However a stream has come to where its reader is at work, only the watcher may have had a reason
to stop. -/
theorem Reachable.working {token : Bool} {limit : Option Span}
    {whole : Job σ ι (Except Error Nat)} (h : Reachable (State.start token limit whole) t)
    (hreader : t.reader = .running job) : Working t := by
  induction h generalizing job with
  | refl => exact ⟨⟨[], rfl, List.nil_prefix, nofun⟩, rfl⟩
  | step _ hmove ih =>
    obtain ⟨before, hbefore⟩ := (State.step_cases hmove).running hreader
    exact (ih hbefore).step hbefore hmove

/-! ## Once the reader is gone -/

/-- A stream whose reader is gone and whose watcher has found no reason to stop. -/
structure Forsaken (items : List ι) (s : State σ ι) : Prop where
  /-- Only items have been sent. -/
  delivered : Delivered items s
  /-- The reader is gone. -/
  reader : s.reader = .ended
  /-- The watcher has nothing to report. -/
  watcher : s.watcher = .watching ∨ s.watcher = .ended

/-- On such a stream nothing is sent any more. -/
theorem Forsaken.step (h : Forsaken items s) (hmove : s.step m = some u) : Forsaken items u := by
  have hstep := State.step_cases hmove
  obtain ⟨hsent, hreader, hwatcher⟩ := h
  have hturn : s.watcher = .watching → u.watcher = .watching ∨ u.watcher = .ended := by
    intro hwatching
    rcases State.step_watching hwatching hmove with hsame | ⟨-, hleft⟩ | ⟨hno, -⟩
    · exact .inl hsame
    · exact .inr hleft
    · exact absurd hreader hno
  cases hstep with
  | job hno _ | readerHalts hno | readerSends hno | interrupt _ hno =>
    rw [hreader] at hno
    cases hno
  | watcherLeaves hwatching | noticeCancel hwatching _ | noticeDeadline hwatching _ _ =>
    exact ⟨hsent.keep rfl rfl id, hreader, hturn hwatching⟩
  | watcherHalts hno | unwound hno _ | watcherSends hno =>
    rw [hno] at hwatcher
    rcases hwatcher with hwatcher | hwatcher
    · cases hwatcher
    · cases hwatcher
  | cancel => exact ⟨hsent.keep rfl rfl fun _ => rfl, hreader, hwatcher⟩
  | expire => exact ⟨hsent.keep rfl rfl id, hreader, hwatcher⟩
  | receive hchannel => exact ⟨hsent.receive hchannel, hreader, hwatcher⟩
  | idle => exact ⟨hsent, hreader, hwatcher⟩

/-- Such a stream stays forsaken. -/
theorem Reachable.forsaken (h : Reachable s t) (hs : Forsaken items s) : Forsaken items t := by
  induction h with
  | refl => exact hs
  | step _ hmove ih => exact ih.step hmove

/-- Such a stream ends with its items, and no error behind them. -/
theorem Forsaken.received (h : Forsaken items s) (hover : s.isOver = true) :
    s.received = items.map .ok := by
  have hall := h.delivered.sent_eq
  rw [(State.isOver_iff.mp hover).2.2] at hall
  simpa using hall

/-- A watcher that has marked the stream before anybody else is stopping it. -/
theorem Sent.stopping {reason : Error} (h : Delivered items s) (hreader : s.reader = .ended)
    (hwatcher : s.watcher = .interrupting reason false) (hhalted : s.halted = true) :
    Stopping items True reason s := by
  have hended : s.reader.Stands items True ⟨items, false⟩ true := by
    rw [hreader]
    exact nofun
  exact .interrupting h hended hwatcher hhalted

/-- A stream whose reader is gone and whose watcher has a reason to stop. -/
inductive Leaving (items : List ι) (reason : Error) (s : State σ ι) : Prop where
  /-- Nobody has marked the stream yet. -/
  | noticed : Delivered items s → s.reader = .ended → s.watcher = .stopping reason →
      s.halted = false → Leaving items reason s
  /-- The watcher has marked it. -/
  | stopping : Stopping items True reason s → Leaving items reason s

/-- A watcher with a reason goes through with it. -/
theorem Leaving.step {reason : Error} (h : Leaving items reason s) (hstep : Step s u) :
    Leaving items reason u := by
  cases h with
  | stopping hstopping => exact .stopping (hstopping.step hstep)
  | noticed hsent hreader hwatcher hhalted =>
    cases hstep with
    | job hno _ | readerHalts hno | readerSends hno | interrupt _ hno =>
      rw [hreader] at hno
      cases hno
    | watcherLeaves hno | noticeCancel hno _ | noticeDeadline hno _ _ | unwound hno _
    | watcherSends hno =>
      rw [hwatcher] at hno
      cases hno
    | watcherHalts hstopping =>
      rw [hwatcher] at hstopping
      cases hstopping
      refine .stopping (Sent.stopping (hsent.keep rfl rfl id) hreader ?_ rfl)
      rw [hhalted]
    | cancel => exact .noticed (hsent.keep rfl rfl fun _ => rfl) hreader hwatcher hhalted
    | expire => exact .noticed (hsent.keep rfl rfl id) hreader hwatcher hhalted
    | receive hchannel => exact .noticed (hsent.receive hchannel) hreader hwatcher hhalted
    | idle => exact .noticed hsent hreader hwatcher hhalted

/-- Such a stream ends with the reason of its watcher, and with no other error. -/
theorem Leaving.reports {reason : Error} (h : Leaving items reason s) (hover : s.isOver = true) :
    (∀ e, .error e ∈ s.received → e = reason) ∧ .error reason ∈ s.received := by
  cases h with
  | stopping hstopping => exact hstopping.reports.imp_right fun h => h hover
  | noticed _ _ hwatcher _ =>
    rw [(State.isOver_iff.mp hover).2.1] at hwatcher
    cases hwatcher

/-- Once the reader is gone, such a stream is forsaken, or its watcher leaves for a good reason. -/
theorem Working.ended (h : Working s) (hreader : s.reader = .ended) :
    (s.watcher = .watching ∧ ∃ items, Forsaken items s) ∨
      (s.watcher ≠ .watching ∧ ∃ items reason, Leaving items reason s ∧
        Justified s.token s.limit s.expired reason) := by
  obtain ⟨⟨items, hsent⟩, hwatcher⟩ := h
  cases hstands : s.watcher with
  | watching => exact .inl ⟨rfl, items, hsent, hreader, .inl hstands⟩
  | stopping reason =>
    rw [hstands] at hwatcher
    exact .inr ⟨nofun, items, reason, .noticed hsent hreader hstands hwatcher.2, hwatcher.1⟩
  | interrupting reason reported =>
    rw [hstands] at hwatcher
    obtain ⟨hgood, rfl, hhalted⟩ := hwatcher
    have hstopping := hsent.stopping hreader hstands hhalted
    exact .inr ⟨nofun, items, reason, .stopping hstopping, hgood⟩
  | reporting reason =>
    rw [hstands] at hwatcher
    exact hwatcher.elim
  | ended =>
    rw [hstands] at hwatcher
    exact hwatcher.elim

/-! ## Streams that break off -/

/-- What a stream delivers whose reader breaks off, whatever the job of the reader is and wherever
it breaks off, in whatever order reader, watcher, receiver, cancellations and the deadline take
their steps. An error arrives if and only if the watcher had found a reason to stop before; every
error that arrives is such a reason, and none tells of the breaking off. A watcher that was still
watching lets the stream end with the items that had been handed over, as if these were all. -/
theorem stream_breaks_off {token : Bool} {limit : Option Span}
    {whole : Job σ ι (Except Error Nat)} {v : State σ ι}
    (hreach : Reachable (State.start token limit whole) t) (hbreak : t.reader = .running .panic)
    (hmove : t.step .reader = some u) (hlater : Reachable u v) (hover : v.isOver = true) :
    ((∃ e, .error e ∈ v.received) ↔ t.watcher ≠ .watching) ∧
      (∀ e, .error e ∈ v.received → Justified v.token limit v.expired e) ∧
      (t.watcher = .watching →
        v.received = t.received ++ t.channel ∧ ∃ items : List ι, v.received = items.map .ok) := by
  have hworking : Working u := (hreach.working hbreak).step hbreak hmove
  have hgone : u = { t with reader := .ended } := by
    simp only [State.step, State.readerStep, hbreak, State.jobStep, Option.some.injEq] at hmove
    exact hmove.symm
  have hreader : u.reader = .ended := by rw [hgone]
  have hstands : u.watcher = t.watcher := by rw [hgone]
  have hsent : u.received ++ u.channel = t.received ++ t.channel := by rw [hgone]
  rw [← hstands, ← hsent]
  -- either nobody is left to report, or the watcher is on its way to do so
  rcases hworking.ended hreader with
    ⟨hwatching, items, hforsaken⟩ | ⟨hreason, items, reason, hleaving, hgood⟩
  · have hlast : Forsaken items v := hlater.forsaken hforsaken
    have hitems : v.received = items.map .ok := hlast.received hover
    have hnone (e : Error) : .error e ∉ v.received := by
      rw [hitems]
      simp
    have hsilent : ¬ ∃ e, .error e ∈ v.received := by
      rintro ⟨e, he⟩
      exact hnone e he
    refine ⟨⟨fun hno => absurd hno hsilent, fun hno => absurd hwatching hno⟩,
      fun e he => absurd he (hnone e), fun _ => ⟨?_, items, hitems⟩⟩
    have hall := hforsaken.delivered.sent_eq
    rw [hitems, hall]
    simp
  · have hlast : Leaving items reason v := hlater.keeps Leaving.step hleaving
    obtain ⟨honly, hreported⟩ := hlast.reports hover
    have hlimit : u.limit = limit := by
      rw [hgone]
      exact hreach.limit_eq
    have hjustified : Justified v.token v.limit v.expired reason :=
      hlater.keeps (P := fun w => Justified w.token w.limit w.expired reason)
        (fun hw hstep => hstep.justified hw) hgood
    rw [hlater.limit_eq, hlimit] at hjustified
    refine ⟨⟨fun _ => hreason, fun _ => ⟨reason, hreported⟩⟩, fun e he => ?_,
      fun hno => absurd hno hreason⟩
    rw [honly e he]
    exact hjustified

/-- The driver of a script that breaks off at its second row. -/
def brokenScript : Script :=
  { columns := ["Name"], rows := [[.text "Ann"], [.text "Bob"]], panicAt := some 1 }

/-- A stream over that script. -/
def brokenStream : State Statement Item :=
  let session : Session := ⟨brokenScript.driver, Engine.standard, none⟩
  State.start false session.limit
    (session.streaming [Member.ofTarget "Name" .text] ⟨"SELECT Name FROM T", []⟩)

/-- The reader gets as far as the second row, and will break off next. -/
def upToBreakdown : List Move :=
  List.replicate 8 .reader

/-- The watcher has found the token cancelled before the reader breaks off: the cancellation is
reported. -/
theorem stream_breaks_off_cancelled :
    let t := brokenStream.run (upToBreakdown ++ [.cancel, .watcher])
    let u : State Statement Item := { t with reader := .ended }
    let v := u.run [.watcher, .watcher, .watcher, .receive, .receive]
    Reachable brokenStream t ∧ t.reader = .running .panic ∧ t.step .reader = some u ∧
      Reachable u v ∧ v.isOver = true ∧ ∃ e, .error e ∈ v.received := by
  intro t u v
  have hreach : Reachable brokenStream t := brokenStream.reachable_run _
  have hlater : Reachable u v := u.reachable_run _
  have hover : v.isOver = true := rfl
  have hends := stream_breaks_off hreach rfl (u := u) rfl hlater hover
  exact ⟨hreach, rfl, rfl, hlater, hover, hends.1.mpr nofun⟩

/-- Nobody cancels anything and no deadline passes: the stream ends after the first of two rows
without an error. -/
theorem stream_breaks_off_silently :
    let t := brokenStream.run upToBreakdown
    let u : State Statement Item := { t with reader := .ended }
    let v := u.run [.watcher, .receive]
    Reachable brokenStream t ∧ t.reader = .running .panic ∧ t.step .reader = some u ∧
      Reachable u v ∧ v.isOver = true ∧ v.received = [.ok [.text "Ann"]] ∧
      ¬ ∃ e, .error e ∈ v.received := by
  intro t u v
  have hreceived : v.received = [.ok [.text "Ann"]] := rfl
  refine ⟨brokenStream.reachable_run _, rfl, rfl, u.reachable_run _, rfl, hreceived, ?_⟩
  rw [hreceived]
  rintro ⟨e, he⟩
  cases List.mem_singleton.mp he

end Stream

end BoundSql
