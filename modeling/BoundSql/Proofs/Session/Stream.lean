import BoundSql.Proofs.Session.Background
import BoundSql.Proofs.Session.Promise
import BoundSql.Session.Stream

/-!
# Streams are safe

Reader, watcher, receiver, cancellation and deadline take their steps in any order. Whoever first
marks the stream as halted reports an error, and nobody else does. Until then a stream is reading;
afterwards it is failing, with the error of its reader, or stopping, with the reason of its watcher.
A stream that is reading may begin to fail or to stop; the other two stay what they are.
-/

namespace BoundSql

namespace Stream

variable {σ ι : Type} {s t u : State σ ι}

/-- What can happen in one step. -/
inductive Step (s : State σ ι) : State σ ι → Prop where
  /-- The reader goes on with its job. -/
  | job {job : Job σ ι (Except Error Nat)} {u : State σ ι} :
      s.reader = .running job → s.jobStep job = some u → Step s u
  /-- The reader marks the stream as halted, and reports only if nobody has marked it before. -/
  | readerHalts {e : Error} : s.reader = .failed e →
      Step s { s with reader := if s.halted then .ended else .reporting e, halted := true }
  /-- The reader sends its error. -/
  | readerSends {e : Error} : s.reader = .reporting e →
      Step s { s with channel := s.channel ++ [.error e], reader := .ended }
  /-- The watcher finds the reader ended. -/
  | watcherLeaves : s.watcher = .watching → Step s { s with watcher := .ended }
  /-- The watcher finds the token cancelled. -/
  | noticeCancel : s.watcher = .watching → s.token = true →
      Step s { s with watcher := .stopping .cancelled }
  /-- The watcher finds the deadline passed. -/
  | noticeDeadline {limit : Span} :
      s.watcher = .watching → s.expired = true → s.limit = some limit →
        Step s { s with watcher := .stopping (.timeout limit) }
  /-- The watcher marks the stream as halted, and remembers whether somebody has before. -/
  | watcherHalts {reason : Error} : s.watcher = .stopping reason →
      Step s { s with watcher := .interrupting reason s.halted, halted := true }
  /-- An interrupt reaches the reader. -/
  | interrupt {reason : Error} {reported : Bool} {job : Job σ ι (Except Error Nat)} :
      s.watcher = .interrupting reason reported → s.reader = .running job →
        Step s { s with reader := .running job.interrupted }
  /-- The watcher finds the reader ended after interrupting it. -/
  | unwound {reason : Error} {reported : Bool} :
      s.watcher = .interrupting reason reported → s.reader = .ended →
        Step s { s with watcher := if reported then .ended else .reporting reason }
  /-- The watcher sends its reason. -/
  | watcherSends {reason : Error} : s.watcher = .reporting reason →
      Step s { s with channel := s.channel ++ [.error reason], watcher := .ended }
  /-- Somebody cancels the token. -/
  | cancel : Step s { s with token := true }
  /-- The time limit runs out. -/
  | expire : Step s { s with expired := true }
  /-- The receiver takes the next item. -/
  | receive {item : Except Error ι} {rest : List (Except Error ι)} : s.channel = item :: rest →
      Step s { s with channel := rest, received := s.received ++ [item] }
  /-- An interrupt reaches nobody. -/
  | idle : Step s s

/-- What is sent goes behind what the channel holds. -/
theorem State.send_eq_some {item : Except Error ι} (h : s.send item = some u) :
    u = { s with channel := s.channel ++ [item] } := by
  unfold State.send at h
  split at h
  · exact (Option.some.inj h).symm
  · cases h

/-- A reader that is gone has ended. -/
theorem Reader.eq_ended {r : Reader σ ι} (h : r.isEnded = true) : r = .ended := by
  cases r with
  | ended => rfl
  | _ => cases h

/-- Every step of the watcher is one of those. -/
theorem State.watcherStep_cases (h : s.watcherStep = some u) : Step s u := by
  unfold State.watcherStep at h
  split at h
  · rename_i hwatcher
    split at h
    · cases h
      exact .watcherLeaves hwatcher
    · split at h
      · rename_i htoken
        cases h
        exact .noticeCancel hwatcher htoken
      · split at h
        · rename_i hexpired
          obtain ⟨limit, hlimit, rfl⟩ := Option.map_eq_some_iff.mp h
          exact .noticeDeadline hwatcher hexpired hlimit
        · cases h
  · rename_i reason hwatcher
    cases h
    exact .watcherHalts hwatcher
  · rename_i reason reported hwatcher
    split at h
    · rename_i hended
      cases h
      exact .unwound hwatcher (Reader.eq_ended hended)
    · split at h
      · rename_i job hhandle hreader
        cases h
        exact .interrupt hwatcher hreader
      · cases h
        exact .idle
  · rename_i reason hwatcher
    obtain ⟨v, hsend, rfl⟩ := Option.map_eq_some_iff.mp h
    rw [State.send_eq_some hsend]
    exact .watcherSends hwatcher
  · cases h

/-- Every step is one of those. -/
theorem State.step_cases {m : Move} (h : s.step m = some u) : Step s u := by
  cases m with
  | watcher => exact State.watcherStep_cases h
  | cancel =>
    cases h
    exact .cancel
  | expire =>
    obtain ⟨limit, hlimit, rfl⟩ := Option.map_eq_some_iff.mp h
    exact .expire
  | receive =>
    simp only [State.step] at h
    split at h
    · cases h
    · rename_i item rest hchannel
      cases h
      exact .receive hchannel
  | reader =>
    simp only [State.step, State.readerStep] at h
    split at h
    · rename_i job hreader
      exact .job hreader h
    · rename_i e hreader
      cases h
      exact .readerHalts hreader
    · rename_i e hreader
      obtain ⟨v, hsend, rfl⟩ := Option.map_eq_some_iff.mp h
      rw [State.send_eq_some hsend]
      exact .readerSends hreader
    · cases h

/-- What every step keeps holds in every state that is reached from one where it holds. -/
theorem Reachable.keeps {P : State σ ι → Prop} (hstep : ∀ {s u}, P s → Step s u → P u)
    (h : Reachable s t) (hs : P s) : P t := by
  induction h with
  | refl => exact hs
  | step _ hmove ih => exact hstep ih (State.step_cases hmove)

/-- A run of moves leads to a state that can be reached. -/
theorem State.reachable_run (s : State σ ι) (moves : List Move) : Reachable s (s.run moves) :=
  Turn.run_keeps Reachable.step .refl moves

/-- The reader at its job leaves watcher, mark, limit and deadline alone, and never takes a
cancellation back. -/
theorem State.jobStep_frame {job : Job σ ι (Except Error Nat)} (h : s.jobStep job = some u) :
    u.watcher = s.watcher ∧ u.halted = s.halted ∧ u.limit = s.limit ∧ u.expired = s.expired ∧
      (s.token = true → u.token = true) := by
  cases job with
  | wait next => cases h
  | hand item next =>
    obtain ⟨v, hsend, rfl⟩ := Option.map_eq_some_iff.mp h
    obtain rfl := State.send_eq_some hsend
    exact ⟨rfl, rfl, rfl, rfl, id⟩
  | cancel next =>
    cases h
    exact ⟨rfl, rfl, rfl, rfl, fun _ => rfl⟩
  | done result =>
    cases result with
    | ok n =>
      cases h
      exact ⟨rfl, rfl, rfl, rfl, id⟩
    | error e =>
      cases h
      exact ⟨rfl, rfl, rfl, rfl, id⟩
  | _ =>
    cases h
    exact ⟨rfl, rfl, rfl, rfl, id⟩

/-- The limit stays, and neither a cancellation nor the passing of the deadline is taken back. -/
theorem Step.frame (h : Step s u) :
    u.limit = s.limit ∧ (s.token = true → u.token = true) ∧
      (s.expired = true → u.expired = true) := by
  cases h with
  | job _ hjob =>
    obtain ⟨-, -, hlimit, hexpired, htoken⟩ := State.jobStep_frame hjob
    exact ⟨hlimit, htoken, fun hpassed => hexpired.trans hpassed⟩
  | cancel => exact ⟨rfl, fun _ => rfl, id⟩
  | expire => exact ⟨rfl, id, fun _ => rfl⟩
  | _ => exact ⟨rfl, id, id⟩

/-! ## What has been sent -/

variable {items : List ι} {fine : Prop} {past : Past ι}

/-- What a stream has sent, received or not: the items that its reader has handed over, which are
the first of all, and perhaps an error behind them. -/
structure Sent (items : List ι) (past : Past ι) (report : Option Error) (s : State σ ι) : Prop where
  /-- The items come before the error. -/
  sent_eq : s.received ++ s.channel = past.handed.map .ok ++ report.toList.map .error
  /-- The items are the first of all. -/
  handed : past.handed <+: items
  /-- The reader has found the token cancelled only if it is. -/
  refused : past.refused = true → s.token = true

/-- Where a reader stands while nobody has heard of an error of it. -/
def Reader.Stands (items : List ι) (fine : Prop) (past : Past ι) (halted : Bool) :
    Reader σ ι → Prop
  | .running job => job.Delivers items fine past
  | .failed e => past.Allows e
  | .reporting _ => False
  | .ended => halted = false → past.handed = items ∧ fine

/-- Once the stream is halted, a reader that has ended promises nothing any more. -/
theorem Reader.Stands.halted {r : Reader σ ι} (h : r.Stands items fine past false) :
    r.Stands items fine past true := by
  cases r with
  | ended => exact nofun
  | _ => exact h

/-- What the reader sends in a step on a job that delivers items, and where it stands then. -/
theorem State.jobStep_stands {job : Job σ ι (Except Error Nat)} (hsent : Sent items past none s)
    (hjob : job.Delivers items fine past) (h : s.jobStep job = some u) (halted : Bool) :
    ∃ past', Sent items past' none u ∧ u.reader.Stands items fine past' halted := by
  obtain ⟨heq, hhanded, hrefused⟩ := hsent
  cases job with
  | done result =>
    cases result with
    | ok n =>
      cases h
      exact ⟨past, ⟨heq, hhanded, hrefused⟩, fun _ => hjob⟩
    | error e =>
      cases h
      exact ⟨past, ⟨heq, hhanded, hrefused⟩, hjob⟩
  | panic => exact hjob.elim
  | wait next => cases h
  | act a next | publish a next =>
    cases h
    exact ⟨past, ⟨heq, hhanded, hrefused⟩, hjob⟩
  | busy cut next =>
    cases h
    exact ⟨past, ⟨heq, hhanded, hrefused⟩, hjob.2⟩
  | cancel next =>
    cases h
    exact ⟨past, ⟨heq, hhanded, fun _ => rfl⟩, hjob⟩
  | poll next =>
    cases h
    by_cases htoken : s.token = true
    · have hnext : (next s.token).Delivers items fine { past with refused := true } := by
        rw [htoken]
        exact hjob.1
      exact ⟨{ past with refused := true }, ⟨heq, hhanded, fun _ => htoken⟩, hnext⟩
    · have hnext : (next s.token).Delivers items fine past := by
        rw [Bool.eq_false_iff.mpr htoken]
        exact hjob.2
      exact ⟨past, ⟨heq, hhanded, hrefused⟩, hnext⟩
  | hand item next =>
    obtain ⟨v, hsend, rfl⟩ := Option.map_eq_some_iff.mp h
    obtain rfl := State.send_eq_some hsend
    refine ⟨{ past with handed := past.handed ++ [item] }, ⟨?_, hjob.1, hrefused⟩, hjob.2⟩
    have hbehind := congrArg (· ++ [Except.ok item]) heq
    simpa using hbehind

/-- What has been sent stays so as long as neither the channel nor the receiver changes. -/
theorem Sent.keep {report : Option Error} (h : Sent items past report s)
    (hchannel : u.channel = s.channel) (hreceived : u.received = s.received)
    (htoken : s.token = true → u.token = true) : Sent items past report u := by
  refine ⟨?_, h.handed, fun hrefused => htoken (h.refused hrefused)⟩
  rw [hchannel, hreceived]
  exact h.sent_eq

/-- The receiver takes what has been sent. -/
theorem Sent.receive {report : Option Error} (h : Sent items past report s)
    {item : Except Error ι} {rest : List (Except Error ι)} (hchannel : s.channel = item :: rest) :
    Sent items past report { s with channel := rest, received := s.received ++ [item] } := by
  refine ⟨?_, h.handed, h.refused⟩
  rw [← h.sent_eq, hchannel, List.append_assoc, List.singleton_append]

/-- An error is sent behind the items. -/
theorem Sent.append {e : Error} (h : Sent items past none s)
    (hchannel : u.channel = s.channel ++ [.error e]) (hreceived : u.received = s.received)
    (htoken : u.token = s.token) : Sent items past (some e) u := by
  refine ⟨?_, h.handed, htoken ▸ h.refused⟩
  have hbehind := congrArg (· ++ [Except.error e]) h.sent_eq
  simpa [hchannel, hreceived] using hbehind

/-- The received items are the first of all, and an error behind them is the one that was sent. With
nothing left in the channel, they are all that was sent. -/
theorem Sent.received {report : Option Error} (h : Sent items past report s) :
    ∃ got error?, s.received = got.map .ok ++ (Option.toList error?).map .error ∧ got <+: items ∧
      (∀ e, error? = some e → report = some e) ∧
      (s.channel = [] → got = past.handed ∧ error? = report) := by
  by_cases hempty : s.channel = []
  · refine ⟨past.handed, report, ?_, h.handed, fun _ he => he, fun _ => ⟨rfl, rfl⟩⟩
    rw [← h.sent_eq, hempty, List.append_nil]
  · have hmore {p : Prop} (hno : s.channel = []) : p := absurd hno hempty
    rcases List.append_eq_append_iff.mp h.sent_eq with ⟨later, hitems, -⟩ | ⟨errors, hgot, htail⟩
    · obtain ⟨got, rest, hhanded, hmap, -⟩ := List.map_eq_append_iff.mp hitems
      have hfirst : got <+: past.handed := ⟨rest, hhanded.symm⟩
      exact ⟨got, none, by simp [hmap], hfirst.trans h.handed, nofun, hmore⟩
    · -- what is left in the channel is all of the report
      have hnone : errors = [] := by
        cases report with
        | none => exact (List.append_eq_nil_iff.mp htail.symm).1
        | some e =>
          cases errors with
          | nil => rfl
          | cons first rest =>
            obtain ⟨-, hrest⟩ := List.cons.inj htail
            exact absurd (List.append_eq_nil_iff.mp hrest.symm).2 hempty
      rw [hnone] at hgot
      exact ⟨past.handed, none, hgot, h.handed, nofun, hmore⟩

/-- An error that is received is the one that was sent. -/
theorem Sent.of_mem {report : Option Error} (h : Sent items past report s) {e : Error}
    (he : .error e ∈ s.received) : report = some e := by
  have hmem := List.mem_append_left s.channel he
  rw [h.sent_eq] at hmem
  simpa using hmem

/-! ## Reading, failing, stopping -/

/-- A watcher that has not marked the stream: with a reason, it is a good one. -/
def Watcher.Waits (good : Error → Prop) : Watcher → Prop
  | .watching => True
  | .stopping reason => good reason
  | .ended => True
  | _ => False

/-- A watcher that will not report anything on a stream that is halted. -/
def Watcher.Silent : Watcher → Prop
  | .interrupting _ reported => reported = true
  | .reporting _ => False
  | _ => True

/-- A stream that nobody has marked as halted. -/
structure Reading (items : List ι) (fine : Prop) (past : Past ι) (s : State σ ι) : Prop where
  /-- Only items have been sent. -/
  sent : Sent items past none s
  /-- The reader stands as it should. -/
  reader : s.reader.Stands items fine past false
  /-- The watcher has no reason but good ones. -/
  watcher : s.watcher.Waits (Justified s.token s.limit s.expired)
  /-- Nobody has marked it. -/
  halted : s.halted = false

/-- A stream whose reader has marked it, and reports. -/
structure Failing (items : List ι) (e : Error) (past : Past ι) (s : State σ ι) : Prop where
  /-- The error is about to be sent, or it has been. -/
  report : (s.reader = .reporting e ∧ Sent items past none s) ∨
    (s.reader = .ended ∧ Sent items past (some e) s)
  /-- The error is one that may come. -/
  allows : past.Allows e
  /-- The watcher does not report. -/
  watcher : s.watcher.Silent
  /-- The stream is halted. -/
  halted : s.halted = true

/-- A stream whose watcher has marked it, and reports. -/
inductive Stopping (items : List ι) (fine : Prop) (reason : Error) (s : State σ ι) : Prop where
  /-- The watcher interrupts the reader. -/
  | interrupting {past : Past ι} : Sent items past none s → s.reader.Stands items fine past true →
      s.watcher = .interrupting reason false → s.halted = true → Stopping items fine reason s
  /-- The watcher is about to send its reason. -/
  | reporting {past : Past ι} : Sent items past none s → s.reader = .ended →
      s.watcher = .reporting reason → Stopping items fine reason s
  /-- The reason has been sent. -/
  | reported {past : Past ι} : Sent items past (some reason) s → s.reader = .ended →
      s.watcher = .ended → Stopping items fine reason s

/-- How far a stream has come. -/
inductive Phase (items : List ι) (fine : Prop) (s : State σ ι) : Prop where
  /-- It is reading. -/
  | reading {past : Past ι} : Reading items fine past s → Phase items fine s
  /-- It fails with an error of its reader. -/
  | failing {e : Error} {past : Past ι} : Failing items e past s → Phase items fine s
  /-- It stops for a reason of its watcher. -/
  | stopping {reason : Error} : Stopping items fine reason s →
      Justified s.token s.limit s.expired reason → Phase items fine s

/-- A good reason stays one. -/
theorem Step.justified {e : Error} (h : Step s u) (he : Justified s.token s.limit s.expired e) :
    Justified u.token u.limit u.expired e := by
  obtain ⟨hlimit, htoken, hexpired⟩ := h.frame
  rw [hlimit]
  exact he.mono htoken hexpired

/-- A watcher that waits goes on waiting. -/
theorem Watcher.Waits.mono {good good' : Error → Prop} {w : Watcher} (h : w.Waits good)
    (hgood : ∀ e, good e → good' e) : w.Waits good' := by
  cases w with
  | stopping reason => exact hgood reason h
  | _ => exact h

/-- A watcher that waits does not report on a stream that the reader has marked. -/
theorem Watcher.Waits.silent {good : Error → Prop} {w : Watcher} (h : w.Waits good) :
    w.Silent := by
  cases w with
  | interrupting reason reported => exact h.elim
  | reporting reason => exact h.elim
  | _ => trivial

/-- A stream that is stopping goes on stopping, for the same reason. -/
theorem Stopping.step {reason : Error} (h : Stopping items fine reason s) (hstep : Step s u) :
    Stopping items fine reason u := by
  cases h with
  | interrupting hsent hreader hwatcher hhalted =>
    cases hstep with
    | job hrunning hjob =>
      rw [hrunning] at hreader
      obtain ⟨hsame, hmark, -⟩ := State.jobStep_frame hjob
      obtain ⟨past', hsent', hreader'⟩ := State.jobStep_stands hsent hreader hjob true
      exact .interrupting hsent' hreader' (hsame.trans hwatcher) (hmark.trans hhalted)
    | readerHalts _ =>
      refine .interrupting (hsent.keep rfl rfl id) ?_ hwatcher rfl
      rw [if_pos hhalted]
      exact nofun
    | readerSends hreporting =>
      rw [hreporting] at hreader
      exact hreader.elim
    | watcherHalts hstopping | watcherSends hstopping =>
      rw [hwatcher] at hstopping
      cases hstopping
    | watcherLeaves hwatching | noticeCancel hwatching _ | noticeDeadline hwatching _ _ =>
      rw [hwatcher] at hwatching
      cases hwatching
    | interrupt _ hrunning =>
      rw [hrunning] at hreader
      have hcut := Job.Ensures.interrupted hreader
      exact .interrupting (hsent.keep rfl rfl id) hcut hwatcher hhalted
    | unwound hinterrupting hended =>
      rw [hwatcher] at hinterrupting
      cases hinterrupting
      exact .reporting (hsent.keep rfl rfl id) hended rfl
    | cancel => exact .interrupting (hsent.keep rfl rfl fun _ => rfl) hreader hwatcher hhalted
    | expire => exact .interrupting (hsent.keep rfl rfl id) hreader hwatcher hhalted
    | receive hchannel => exact .interrupting (hsent.receive hchannel) hreader hwatcher hhalted
    | idle => exact .interrupting hsent hreader hwatcher hhalted
  | reporting hsent hreader hwatcher =>
    cases hstep with
    | job hrunning _ | readerHalts hrunning | readerSends hrunning | interrupt _ hrunning =>
      rw [hreader] at hrunning
      cases hrunning
    | watcherLeaves hwatching | noticeCancel hwatching _ | noticeDeadline hwatching _ _
    | watcherHalts hwatching | unwound hwatching _ =>
      rw [hwatcher] at hwatching
      cases hwatching
    | watcherSends hreporting =>
      rw [hwatcher] at hreporting
      cases hreporting
      exact .reported (hsent.append rfl rfl rfl) hreader rfl
    | cancel => exact .reporting (hsent.keep rfl rfl fun _ => rfl) hreader hwatcher
    | expire => exact .reporting (hsent.keep rfl rfl id) hreader hwatcher
    | receive hchannel => exact .reporting (hsent.receive hchannel) hreader hwatcher
    | idle => exact .reporting hsent hreader hwatcher
  | reported hsent hreader hwatcher =>
    cases hstep with
    | job hrunning _ | readerHalts hrunning | readerSends hrunning | interrupt _ hrunning =>
      rw [hreader] at hrunning
      cases hrunning
    | watcherLeaves hwatching | noticeCancel hwatching _ | noticeDeadline hwatching _ _
    | watcherHalts hwatching | unwound hwatching _ | watcherSends hwatching =>
      rw [hwatcher] at hwatching
      cases hwatching
    | cancel => exact .reported (hsent.keep rfl rfl fun _ => rfl) hreader hwatcher
    | expire => exact .reported (hsent.keep rfl rfl id) hreader hwatcher
    | receive hchannel => exact .reported (hsent.receive hchannel) hreader hwatcher
    | idle => exact .reported hsent hreader hwatcher

/-- A stream that is failing goes on failing, with the same error. -/
theorem Failing.step {e : Error} (h : Failing items e past s) (hstep : Step s u) :
    Failing items e past u := by
  obtain ⟨hreport, hallows, hwatcher, hhalted⟩ := h
  have hquiet {r : Reader σ ι} (hr : s.reader = r) : r = .reporting e ∨ r = .ended := by
    rw [← hr]
    exact hreport.imp And.left And.left
  -- a step that neither sends nor receives leaves the report as it is
  have hkeep {v : State σ ι} (hreader : v.reader = s.reader) (hchannel : v.channel = s.channel)
      (hreceived : v.received = s.received) (htoken : s.token = true → v.token = true) :
      (v.reader = .reporting e ∧ Sent items past none v) ∨
        (v.reader = .ended ∧ Sent items past (some e) v) := by
    rw [hreader]
    exact hreport.imp (And.imp_right fun h => h.keep hchannel hreceived htoken)
      (And.imp_right fun h => h.keep hchannel hreceived htoken)
  cases hstep with
  | job hreader _ | interrupt _ hreader | readerHalts hreader =>
    rcases hquiet hreader with hno | hno
    · cases hno
    · cases hno
  | readerSends hreporting =>
    rcases hreport with ⟨hreader, hsent⟩ | ⟨hreader, -⟩
    · rw [hreader] at hreporting
      cases hreporting
      exact ⟨.inr ⟨rfl, hsent.append rfl rfl rfl⟩, hallows, hwatcher, hhalted⟩
    · rw [hreader] at hreporting
      cases hreporting
  | watcherLeaves _ => exact ⟨hkeep rfl rfl rfl id, hallows, trivial, hhalted⟩
  | noticeCancel _ _ => exact ⟨hkeep rfl rfl rfl id, hallows, trivial, hhalted⟩
  | noticeDeadline _ _ _ => exact ⟨hkeep rfl rfl rfl id, hallows, trivial, hhalted⟩
  | watcherHalts _ => exact ⟨hkeep rfl rfl rfl id, hallows, hhalted, rfl⟩
  | @unwound reason reported hinterrupting _ =>
    rw [hinterrupting] at hwatcher
    have hreported : reported = true := hwatcher
    refine ⟨hkeep rfl rfl rfl id, hallows, ?_, hhalted⟩
    simp only [hreported, if_true]
    trivial
  | watcherSends hreporting =>
    rw [hreporting] at hwatcher
    exact hwatcher.elim
  | cancel => exact ⟨hkeep rfl rfl rfl fun _ => rfl, hallows, hwatcher, hhalted⟩
  | expire => exact ⟨hkeep rfl rfl rfl id, hallows, hwatcher, hhalted⟩
  | receive hchannel =>
    exact ⟨hreport.imp (And.imp_right fun h => h.receive hchannel)
      (And.imp_right fun h => h.receive hchannel), hallows, hwatcher, hhalted⟩
  | idle => exact ⟨hreport, hallows, hwatcher, hhalted⟩

/-- A stream that is reading goes on reading, or begins to fail or to stop. -/
theorem Reading.step (h : Reading items fine past s) (hstep : Step s u) : Phase items fine u := by
  have hgood (e : Error) (he : Justified s.token s.limit s.expired e) := hstep.justified he
  obtain ⟨hsent, hreader, hwatcher, hhalted⟩ := h
  cases hstep with
  | job hrunning hjob =>
    rw [hrunning] at hreader
    obtain ⟨hsame, hmark, -⟩ := State.jobStep_frame hjob
    obtain ⟨past', hsent', hreader'⟩ := State.jobStep_stands hsent hreader hjob false
    exact .reading ⟨hsent', hreader', hsame ▸ hwatcher.mono hgood, hmark.trans hhalted⟩
  | @readerHalts e hfailed =>
    rw [hfailed] at hreader
    refine .failing ⟨.inl ⟨?_, hsent.keep rfl rfl id⟩, hreader, hwatcher.silent, rfl⟩
    simp only [hhalted, Bool.false_eq_true, if_false]
  | readerSends hreporting =>
    rw [hreporting] at hreader
    exact hreader.elim
  | watcherLeaves _ => exact .reading ⟨hsent.keep rfl rfl id, hreader, trivial, hhalted⟩
  | noticeCancel _ htoken =>
    exact .reading ⟨hsent.keep rfl rfl id, hreader, .cancelled htoken, hhalted⟩
  | noticeDeadline _ hexpired hlimit =>
    exact .reading ⟨hsent.keep rfl rfl id, hreader, .timeout hlimit hexpired, hhalted⟩
  | watcherHalts hstopping =>
    rw [hstopping] at hwatcher
    refine .stopping (.interrupting (hsent.keep rfl rfl id) hreader.halted ?_ rfl) hwatcher
    rw [hhalted]
  | interrupt hhalting _ | unwound hhalting _ | watcherSends hhalting =>
    rw [hhalting] at hwatcher
    exact hwatcher.elim
  | cancel =>
    exact .reading ⟨hsent.keep rfl rfl fun _ => rfl, hreader, hwatcher.mono hgood, hhalted⟩
  | expire =>
    exact .reading ⟨hsent.keep rfl rfl id, hreader, hwatcher.mono hgood, hhalted⟩
  | receive hchannel => exact .reading ⟨hsent.receive hchannel, hreader, hwatcher, hhalted⟩
  | idle => exact .reading ⟨hsent, hreader, hwatcher, hhalted⟩

/-- Every step leads from one phase to the same or another. -/
theorem Phase.step (h : Phase items fine s) (hstep : Step s u) : Phase items fine u := by
  cases h with
  | reading hreading => exact hreading.step hstep
  | failing hfailing => exact .failing (hfailing.step hstep)
  | stopping hstopping hreason => exact .stopping (hstopping.step hstep) (hstep.justified hreason)

/-- Every state of a stream whose job delivers items is in one of the phases. -/
theorem Reachable.phase {token : Bool} {limit : Option Span} {job : Job σ ι (Except Error Nat)}
    (hjob : job.Delivers items fine ⟨[], false⟩) (h : Reachable (State.start token limit job) t) :
    Phase items fine t := by
  have hsent : Sent items ⟨[], false⟩ none (State.start token limit job) := by
    refine ⟨rfl, List.nil_prefix, fun hno => ?_⟩
    cases hno
  exact h.keeps Phase.step (.reading ⟨hsent, hjob, trivial, rfl⟩)

/-- The limit of a stream stays. -/
theorem Reachable.limit_eq (h : Reachable s t) : t.limit = s.limit :=
  h.keeps (P := fun v => v.limit = s.limit) (fun hv hstep => hstep.frame.1.trans hv) rfl

/-- A stream that has ended has nothing left in its channel, and its tasks are gone. -/
theorem State.isOver_iff :
    s.isOver = true ↔ s.reader = .ended ∧ s.watcher = .ended ∧ s.channel = [] := by
  have hreader : s.reader.isEnded = true ↔ s.reader = .ended := by
    refine ⟨Reader.eq_ended, fun h => ?_⟩
    rw [h]
    rfl
  simp only [State.isOver, Bool.and_eq_true, hreader, beq_iff_eq, List.isEmpty_iff, and_assoc]

/-- In every phase, an error that has been sent is one that may come, and a stream that has ended
without one has handed everything over, for a good reason. -/
theorem Phase.sent (h : Phase items fine s) :
    ∃ past report, Sent items past report s ∧
      (∀ e, report = some e → past.Allows e ∨ Justified s.token s.limit s.expired e) ∧
      (s.isOver = true → report = none → past.handed = items ∧ fine) := by
  cases h with
  | @reading past hreading =>
    refine ⟨past, none, hreading.sent, nofun, fun hover _ => ?_⟩
    have hreader := hreading.reader
    rw [(State.isOver_iff.mp hover).1] at hreader
    exact hreader rfl
  | @failing e past hfailing =>
    rcases hfailing.report with ⟨hreader, hsent⟩ | ⟨-, hsent⟩
    · refine ⟨past, none, hsent, nofun, fun hover _ => ?_⟩
      rw [(State.isOver_iff.mp hover).1] at hreader
      cases hreader
    · refine ⟨past, some e, hsent, fun e' he' => .inl ?_, nofun⟩
      cases he'
      exact hfailing.allows
  | @stopping reason hstopping hreason =>
    cases hstopping with
    | @interrupting past hsent _ hwatcher _ | @reporting past hsent _ hwatcher =>
      refine ⟨past, none, hsent, nofun, fun hover _ => ?_⟩
      rw [(State.isOver_iff.mp hover).2.1] at hwatcher
      cases hwatcher
    | @reported past hsent _ _ =>
      refine ⟨past, some reason, hsent, fun e he => .inr ?_, nofun⟩
      cases he
      exact hreason

/-- A stream that is stopping reports no error but its reason, and has reported it when it ends. -/
theorem Stopping.reports {reason : Error} (h : Stopping items fine reason s) :
    (∀ e, .error e ∈ s.received → e = reason) ∧
      (s.isOver = true → .error reason ∈ s.received) := by
  cases h with
  | interrupting hsent _ hwatcher _ | reporting hsent _ hwatcher =>
    constructor
    · intro e he
      cases hsent.of_mem he
    · intro hover
      rw [(State.isOver_iff.mp hover).2.1] at hwatcher
      cases hwatcher
  | reported hsent _ _ =>
    constructor
    · intro e he
      exact (Option.some.inj (hsent.of_mem he)).symm
    · intro hover
      have hall := hsent.sent_eq
      rw [(State.isOver_iff.mp hover).2.2, List.append_nil] at hall
      rw [hall]
      exact List.mem_append_right _ (List.mem_singleton.mpr rfl)

/-! ## Streams -/

/-- What holds in every state of a stream, for a driver that neither breaks off nor has errors of
cancellation or time of its own, in whatever order reader, watcher, receiver, cancellations and the
deadline take their steps. What has been received are the first of the filled rows in their order,
and behind them an error at most. The error is a cancellation only if the token is cancelled, and a
timeout only if the deadline of the session has passed. A stream that has ended without an error has
delivered every row, and its driver has failed nowhere. And from the moment that the watcher may
interrupt a reader at work, no error comes but the reason of the watcher, whatever the interrupt
does to the reader, and that does come. -/
theorem stream_safe (s : Session) (shape : Shape) (statement : Statement) (token : Bool)
    (hdriver : s.driver.Regular statement) (t : State Statement Item)
    (h : Reachable (State.start token s.limit (s.streaming shape statement)) t) :
    (∃ items error?, t.received = items.map .ok ++ (Option.toList error?).map .error ∧
      items <+: s.filled shape statement ∧
      (error? = some .cancelled → t.token = true) ∧
      (∀ length, error? = some (.timeout length) →
        s.limit = some length ∧ t.expired = true) ∧
      (t.isOver = true → error? = none → items = s.filled shape statement ∧
        s.driver.serving statement Cursor.ending = .returned (.ok ()))) ∧
    (∀ reason reported job, t.watcher = .interrupting reason reported → t.reader = .running job →
      Justified t.token s.limit t.expired reason ∧
      ∀ u, Reachable t u → (∀ e, .error e ∈ u.received → e = reason) ∧
        (u.isOver = true → .error reason ∈ u.received)) := by
  have hphase := h.phase (s.delivers_streaming shape hdriver)
  have hlimit : t.limit = s.limit := h.limit_eq
  constructor
  · obtain ⟨past, report, hsent, hreason, hover⟩ := hphase.sent
    obtain ⟨items, error?, hreceived, hitems, herror, hempty⟩ := hsent.received
    refine ⟨items, error?, hreceived, hitems, fun he => ?_, fun length he => ?_,
      fun hended hnone => ?_⟩
    · rcases hreason _ (herror _ he) with (hown | ⟨-, hrefused⟩) | hstop
      · exact absurd rfl hown.1
      · exact hsent.refused hrefused
      · cases hstop with
        | cancelled htoken => exact htoken
    · rcases hreason _ (herror _ he) with (hown | ⟨hno, -⟩) | hstop
      · exact absurd rfl (hown.2 length)
      · cases hno
      · cases hstop with
        | timeout hlength hexpired => exact ⟨hlimit.symm.trans hlength, hexpired⟩
    · obtain ⟨rfl, hsame⟩ := hempty (State.isOver_iff.mp hended).2.2
      exact hover hended (hsame.symm.trans hnone)
  · intro reason reported job hwatcher hreader
    cases hphase with
    | reading hreading =>
      have hwaits := hreading.watcher
      rw [hwatcher] at hwaits
      exact hwaits.elim
    | failing hfailing =>
      rcases hfailing.report with ⟨hno, -⟩ | ⟨hno, -⟩
      · rw [hreader] at hno
        cases hno
      · rw [hreader] at hno
        cases hno
    | @stopping reason' hstopping hreason =>
      have hsame : reason' = reason := by
        cases hstopping with
        | interrupting _ _ hinterrupting _ =>
          rw [hwatcher] at hinterrupting
          exact (Watcher.interrupting.inj hinterrupting).1.symm
        | reporting _ hno _ | reported _ hno _ =>
          rw [hreader] at hno
          cases hno
      subst hsame
      rw [hlimit] at hreason
      exact ⟨hreason, fun u hlater => (hlater.keeps Stopping.step hstopping).reports⟩

/-- The driver of a script that waits at its second row. -/
def waitingScript : Script :=
  { columns := ["Name"], rows := [[.text "Ann"], [.text "Bob"]], blockAt := some 1 }

/-- A stream over that script. -/
def waitingStream : State Statement Item :=
  let session : Session := ⟨waitingScript.driver, Engine.standard, none⟩
  State.start false session.limit
    (session.streaming [Member.ofTarget "Name" .text] ⟨"SELECT Name FROM T", []⟩)

/-- The reader gets as far as the second row, the first one is received, and the stream is
cancelled. -/
def cancellation : List Move :=
  List.replicate 9 .reader ++ [.receive, .cancel, .watcher, .watcher]

/-- A stream that is cancelled while its reader waits for a row reports nothing but that it was
cancelled, though the interrupt makes the driver fail. -/
theorem stream_safe_interrupted :
    waitingScript.driver.Regular ⟨"SELECT Name FROM T", []⟩ ∧
      Reachable waitingStream (waitingStream.run cancellation) ∧
      (waitingStream.run cancellation).received = [.ok [.text "Ann"]] ∧
      ∀ u, Reachable (waitingStream.run cancellation) u →
        ∀ e, .error e ∈ u.received → e = .cancelled := by
  have herrors : waitingScript.errors = [] := rfl
  have hdriver : waitingScript.driver.Regular ⟨"SELECT Name FROM T", []⟩ :=
    Script.regular_driver rfl (by simp [herrors]) _
  have hreach := waitingStream.reachable_run cancellation
  have hsafe := stream_safe ⟨waitingScript.driver, Engine.standard, none⟩
    [Member.ofTarget "Name" .text] ⟨"SELECT Name FROM T", []⟩ false hdriver _ hreach
  refine ⟨hdriver, hreach, rfl, fun u hlater => ?_⟩
  exact ((hsafe.2 .cancelled false _ rfl rfl).2 u hlater).1

end Stream

end BoundSql
