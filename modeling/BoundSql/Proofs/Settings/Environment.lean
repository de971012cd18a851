import BoundSql.Proofs.Settings.Scalar
import BoundSql.Proofs.Settings.Tree
import BoundSql.Settings.Basic

/-!
# Text settings from the environment

Five settings are texts, and each has a variable of the environment. A variable is laid over what
the defaults and the document give, so it decides its own setting and leaves the others. What it
puts there is not the text of the variable but what that text is read as, written out. The two are
the same for most texts, and it is said here for which.
-/

namespace BoundSql.Settings

/-- The settings that are texts. -/
inductive TextField where
  /-- Where the database is kept. -/
  | database
  /-- What to log. -/
  | logFilter
  /-- The owner of the tables. -/
  | owner
  /-- The qualifier in front of table names. -/
  | qualifier
  /-- The further qualifier of a module's tables. -/
  | moduleQualifier
  deriving DecidableEq

namespace TextField

/-- The variable of the environment. -/
def variableName : TextField → String
  | database => "SQLFORGE_DATABASE"
  | logFilter => "SQLFORGE_LOG_FILTER"
  | owner => "SQLFORGE_PREFIXES__OWNER"
  | qualifier => "SQLFORGE_PREFIXES__QUALIFIER"
  | moduleQualifier => "SQLFORGE_PREFIXES__MODULE_QUALIFIER"

/-- The names that lead to the setting. -/
def names : TextField → List String
  | database => ["database"]
  | logFilter => ["log_filter"]
  | owner => ["prefixes", "owner"]
  | qualifier => ["prefixes", "qualifier"]
  | moduleQualifier => ["prefixes", "module_qualifier"]

/-- The setting. -/
def get : TextField → Settings → String
  | database, s => s.database
  | logFilter, s => s.logFilter
  | owner, s => s.prefixes.owner
  | qualifier, s => s.prefixes.qualifier
  | moduleQualifier, s => s.prefixes.moduleQualifier

/-- Settings with another text for the setting. -/
def put : TextField → Settings → String → Settings
  | database, s, w => { s with database := w }
  | logFilter, s, w => { s with logFilter := w }
  | owner, s, w => { s with prefixes := { s.prefixes with owner := w } }
  | qualifier, s, w => { s with prefixes := { s.prefixes with qualifier := w } }
  | moduleQualifier, s, w => { s with prefixes := { s.prefixes with moduleQualifier := w } }

/-- Whether the setting is one of the prefixes of tables. -/
def isPart : TextField → Bool
  | database | logFilter => false
  | owner | qualifier | moduleQualifier => true

/-- Where the setting is put. -/
def path (f : TextField) : Path :=
  f.names.map .name

/-- The setting is what was put there. -/
@[simp] theorem get_put (f : TextField) (s : Settings) (w : String) : f.get (f.put s w) = w := by
  cases f with
  | _ => rfl

/-- The variable stands for the path of the setting. -/
theorem path?_variableName (f : TextField) : Environment.path? f.variableName = some f.path := by
  cases f with
  | _ => decide

end TextField

variable {t u : Tree} {p q : Path} {base : Settings}

/-- A reading of a setting is made at its path alone. -/
theorem field?_congr {α : Type} {read? : Scalar → Option α} (h : u.find? p = t.find? p) :
    field? read? u p = field? read? t p := by
  unfold field?
  rw [h]

/-- A text is any plain value written out. -/
theorem text?_of_find? {value : Scalar} (h : t.find? p = some (.leaf value)) :
    text? t p = .ok (some value.shown) := by
  simp only [text?, field?, h]

/-- A setting that is asked for is given when it is there. -/
theorem required_eq_ok_iff {α : Type} {a : α} {found : Option α} :
    required p found = .ok a ↔ found = some a := by
  cases found with
  | none => simp [required]
  | some b => simp [required]

/-- What follows a result that must be there is given the result. -/
theorem bind_eq_ok_iff {α β : Type} {x : Except Fault α} {k : α → Except Fault β} {b : β} :
    (x >>= k) = .ok b ↔ ∃ a, x = .ok a ∧ k a = .ok b := by
  cases x with
  | error e => simp [bind, Except.bind]
  | ok a => simp [bind, Except.bind]

/-- The settings of a tree are read one by one, each at its own path. -/
theorem ofTree_eq_ok_iff : ofTree t = .ok base ↔
    text? t [.name "database"] = .ok (some base.database) ∧
    field? Scalar.unsigned? t [.name "busy_timeout_ms"] = .ok (some base.busyMillis) ∧
    field? Scalar.unsigned? t [.name "query_timeout_ms"] = .ok base.queryMillis ∧
    text? t [.name "log_filter"] = .ok (some base.logFilter) ∧
    prefixesOf t = .ok base.prefixes := by
  obtain ⟨database, busyMillis, queryMillis, logFilter, prefixes⟩ := base
  simp only [ofTree, bind_eq_ok_iff, required_eq_ok_iff, pure, Except.pure, Except.ok.injEq,
    Settings.mk.injEq]
  constructor
  · rintro ⟨a, ha, _, rfl, b, hb, _, rfl, c, hc, d, hd, _, rfl, e, he, rfl, rfl, rfl, rfl, rfl⟩
    exact ⟨ha, hb, hc, hd, he⟩
  · rintro ⟨ha, hb, hc, hd, he⟩
    exact ⟨_, ha, _, rfl, _, hb, _, rfl, _, hc, _, hd, _, rfl, _, he, rfl, rfl, rfl, rfl, rfl⟩

/-- Whether the prefixes of tables stand one after the other in a list. -/
def listsPrefixes (t : Tree) : Bool :=
  match t.find? [.name "prefixes"] with
  | some (.list _) => true
  | _ => false

/-- The prefixes of tables that have names of their own. -/
def namedPrefixes (t : Tree) (prefixes : Prefixes) : Prefixes :=
  if listsPrefixes t then .none else prefixes

/-- Prefixes that are read by name in a table. -/
theorem prefixesAt_eq_ok_iff {a b c : PathStep} {prefixes : Prefixes} :
    prefixesAt t a b c = .ok prefixes ↔
      prefixPart t a = .ok prefixes.owner ∧ prefixPart t b = .ok prefixes.qualifier ∧
        prefixPart t c = .ok prefixes.moduleQualifier := by
  obtain ⟨owner, qualifier, moduleQualifier⟩ := prefixes
  simp only [prefixesAt, bind_eq_ok_iff, pure, Except.pure, Except.ok.injEq, Prefixes.mk.injEq]
  constructor
  · rintro ⟨a, ha, b, hb, c, hc, rfl, rfl, rfl⟩
    exact ⟨ha, hb, hc⟩
  · rintro ⟨ha, hb, hc⟩
    exact ⟨_, ha, _, hb, _, hc, rfl, rfl, rfl⟩

/-- The prefixes of tables as they are read by name. -/
def namedPrefixesOf (t : Tree) : Except Fault Prefixes :=
  prefixesAt t (.name "owner") (.name "qualifier") (.name "module_qualifier")

/-- A prefix is not there when no table of prefixes is. -/
theorem prefixPart_of_child? (h : ∀ es, t.find? [.name "prefixes"] ≠ some (.table es))
    (name : String) : prefixPart t (.name name) = .ok "" := by
  have hnone : t.find? [.name "prefixes", .name name] = none := by
    have hway : t.find? [.name "prefixes"] = t.child? "prefixes" := by
      rw [Tree.find?_name_cons]
      cases t.child? "prefixes" <;> rfl
    rw [hway] at h
    rw [Tree.find?_name_cons]
    cases hnode : t.child? "prefixes" with
    | none => rfl
    | some node =>
      cases node with
      | table es => exact absurd hnode (h es)
      | _ => rfl
  simp [prefixPart, text?, field?, hnone]

/-- Prefixes that stand in a list have no names. -/
theorem namedPrefixesOf_eq {prefixes : Prefixes} (h : prefixesOf t = .ok prefixes) :
    namedPrefixesOf t = .ok (namedPrefixes t prefixes) := by
  unfold prefixesOf at h
  unfold namedPrefixes listsPrefixes
  split at h
  · rename_i hnone
    cases h
    simp only [hnone, Bool.false_eq_true, if_false]
    refine prefixesAt_eq_ok_iff.mpr ⟨?_, ?_, ?_⟩
    all_goals exact prefixPart_of_child? (by simp [hnone]) _
  · rename_i es htable
    simp only [htable, Bool.false_eq_true, if_false]
    exact h
  · rename_i ts hlist
    simp only [hlist, if_true]
    refine prefixesAt_eq_ok_iff.mpr ⟨?_, ?_, ?_⟩
    all_goals exact prefixPart_of_child? (by simp [hlist]) _
  · cases h

/-- A prefix that is put in by name is read by its name. -/
theorem prefixPart_assign_self (name : String) (value : Scalar) (t : Tree) :
    prefixPart (t.assign ⟨[.name "prefixes", .name name], .value value⟩) (.name name) =
      .ok value.shown := by
  have htext : text? (t.assign ⟨[.name "prefixes", .name name], .value value⟩)
      [.name "prefixes", .name name] = .ok (some value.shown) :=
    text?_of_find? (Tree.find?_assign_value ["prefixes", name] value t)
  rw [prefixPart, htext]
  rfl

/-- A prefix that is put in by name leaves the others. -/
theorem prefixPart_assign_of_ne {name other : String} (h : name ≠ other) (content : Content)
    (t : Tree) :
    prefixPart (t.assign ⟨[.name "prefixes", .name name], content⟩) (.name other) =
      prefixPart t (.name other) := by
  have hparts : Path.Parts [.name "prefixes", .name name] [.name "prefixes", .name other] :=
    .later (.here h)
  rw [prefixPart, prefixPart, text?, text?,
    field?_congr (Tree.find?_assign_of_parts content hparts t)]

/-- Once a prefix is put in by name, prefixes are read by name. -/
theorem prefixesOf_assign (name : String) (content : Content) (t : Tree) :
    prefixesOf (t.assign ⟨[.name "prefixes", .name name], content⟩) =
      namedPrefixesOf (t.assign ⟨[.name "prefixes", .name name], content⟩) := by
  obtain ⟨es, htable⟩ := Tree.find?_assign_above content "prefixes" name [] t
  rw [prefixesOf, htable]
  rfl

/-- What is put elsewhere leaves the prefixes of tables. -/
theorem prefixesOf_congr
    (h : ∀ q, u.find? (.name "prefixes" :: q) = t.find? (.name "prefixes" :: q)) :
    prefixesOf u = prefixesOf t := by
  have hpart (step : PathStep) : prefixPart u step = prefixPart t step := by
    rw [prefixPart, prefixPart, text?, text?, field?_congr (h [step])]
  simp only [prefixesOf, prefixesAt, h [], hpart]

/-- What is put below one name leaves the settings below the others. -/
theorem find?_assign_elsewhere {name other : String} (h : name ≠ other) (content : Content)
    (t : Tree) (p q : Path) :
    (t.assign ⟨.name name :: p, content⟩).find? (.name other :: q) = t.find? (.name other :: q) :=
  Tree.find?_assign_of_parts content (.here h) t

/-- Settings whose prefixes are read by name once one of them is put in by name. -/
theorem ofTree_assign_part (base : Settings) {name : String} {content : Content}
    {prefixes : Prefixes} (h : ofTree t = .ok base)
    (hnamed : namedPrefixesOf (t.assign ⟨[.name "prefixes", .name name], content⟩) = .ok prefixes) :
    ofTree (t.assign ⟨[.name "prefixes", .name name], content⟩) =
      .ok { base with prefixes := prefixes } := by
  obtain ⟨hdatabase, hbusy, hquery, hlog, -⟩ := ofTree_eq_ok_iff.mp h
  refine ofTree_eq_ok_iff.mpr ⟨?_, ?_, ?_, ?_, (prefixesOf_assign name content t).trans hnamed⟩
  · exact (field?_congr (find?_assign_elsewhere (by decide) content t _ _)).trans hdatabase
  · exact (field?_congr (find?_assign_elsewhere (by decide) content t _ _)).trans hbusy
  · exact (field?_congr (find?_assign_elsewhere (by decide) content t _ _)).trans hquery
  · exact (field?_congr (find?_assign_elsewhere (by decide) content t _ _)).trans hlog

/-- Settings as they stand beside a text setting that is put in by name: a list of prefixes gives
place to a table. -/
def TextField.beside (f : TextField) (t : Tree) (base : Settings) : Settings :=
  if f.isPart then { base with prefixes := namedPrefixes t base.prefixes } else base

/-- A plain value that is put in the place of a text setting is written out, and every other setting
is what it was. -/
theorem ofTree_assign (f : TextField) (value : Scalar) (h : ofTree t = .ok base) :
    ofTree (t.assign ⟨f.path, .value value⟩) = .ok (f.put (f.beside t base) value.shown) := by
  obtain ⟨hdatabase, hbusy, hquery, hlog, hprefixes⟩ := ofTree_eq_ok_iff.mp h
  obtain ⟨howner, hqualifier, hmodule⟩ := prefixesAt_eq_ok_iff.mp (namedPrefixesOf_eq hprefixes)
  cases f with
  | database =>
    have hother {other : String} (hne : "database" ≠ other) (q : Path) :=
      find?_assign_elsewhere hne (.value value) t [] q
    refine ofTree_eq_ok_iff.mpr ⟨text?_of_find? (Tree.find?_assign_value ["database"] value t),
      ?_, ?_, ?_, ?_⟩
    · exact (field?_congr (hother (by decide) [])).trans hbusy
    · exact (field?_congr (hother (by decide) [])).trans hquery
    · exact (field?_congr (hother (by decide) [])).trans hlog
    · exact (prefixesOf_congr (hother (by decide))).trans hprefixes
  | logFilter =>
    have hother {other : String} (hne : "log_filter" ≠ other) (q : Path) :=
      find?_assign_elsewhere hne (.value value) t [] q
    refine ofTree_eq_ok_iff.mpr ⟨?_, ?_, ?_,
      text?_of_find? (Tree.find?_assign_value ["log_filter"] value t), ?_⟩
    · exact (field?_congr (hother (by decide) [])).trans hdatabase
    · exact (field?_congr (hother (by decide) [])).trans hbusy
    · exact (field?_congr (hother (by decide) [])).trans hquery
    · exact (prefixesOf_congr (hother (by decide))).trans hprefixes
  | owner =>
    refine ofTree_assign_part base h (prefixesAt_eq_ok_iff.mpr ⟨?_, ?_, ?_⟩)
    · exact prefixPart_assign_self "owner" value t
    · exact (prefixPart_assign_of_ne (by decide) _ t).trans hqualifier
    · exact (prefixPart_assign_of_ne (by decide) _ t).trans hmodule
  | qualifier =>
    refine ofTree_assign_part base h (prefixesAt_eq_ok_iff.mpr ⟨?_, ?_, ?_⟩)
    · exact (prefixPart_assign_of_ne (by decide) _ t).trans howner
    · exact prefixPart_assign_self "qualifier" value t
    · exact (prefixPart_assign_of_ne (by decide) _ t).trans hmodule
  | moduleQualifier =>
    refine ofTree_assign_part base h (prefixesAt_eq_ok_iff.mpr ⟨?_, ?_, ?_⟩)
    · exact (prefixPart_assign_of_ne (by decide) _ t).trans howner
    · exact (prefixPart_assign_of_ne (by decide) _ t).trans hqualifier
    · exact prefixPart_assign_self "module_qualifier" value t

/-- The tree that the defaults and a document make. -/
def layered (document : Option String) : Except Fault Tree :=
  (documentAssignments document).map fun assignments => Tree.ofAssignments (defaults ++ assignments)

/-- The environment is laid over the defaults and the document. -/
theorem load_eq (document : Option String) (env : List Environment.Variable) :
    load document env =
      layered document >>= fun t => ofTree ((Environment.assignments env).foldl Tree.assign t) := by
  unfold load layered
  cases documentAssignments document with
  | error e => rfl
  | ok assignments =>
    refine congrArg ofTree ?_
    rw [Tree.ofAssignments, List.foldl_append]
    rfl

/-- Of the variables of an environment, only the one of a text setting is a setting, and it holds a
text. -/
def TextField.Sole (f : TextField) (s : String) (env : List Environment.Variable) : Prop :=
  env.filter (fun v => (Environment.path? v.1).isSome) = [(f.variableName, s)]

/-- An environment makes one assignment of its only setting. -/
theorem TextField.Sole.assignments_eq {f : TextField} {s : String}
    {env : List Environment.Variable} (h : f.Sole s env) :
    Environment.assignments env = [⟨f.path, .value (Scalar.ofText s)⟩] := by
  have hsettings : Environment.assignments env =
      (env.filter fun v => (Environment.path? v.1).isSome).filterMap Environment.assignment? := by
    rw [List.filterMap_filter, Environment.assignments]
    refine List.filterMap_congr fun v _ => ?_
    unfold Environment.assignment?
    cases Environment.path? v.1 <;> rfl
  have hone : Environment.assignment? (f.variableName, s) =
      some ⟨f.path, .value (Scalar.ofText s)⟩ := by
    rw [Environment.assignment?, f.path?_variableName]
    rfl
  rw [hsettings, h, List.filterMap_cons_some hone, List.filterMap_nil]

/-- With only a text setting in the environment, its variable is put into the tree that the defaults
and the document make. -/
theorem load_of_sole {f : TextField} {s : String} {env : List Environment.Variable}
    (h : f.Sole s env) (document : Option String) :
    load document env =
      layered document >>= fun t => ofTree (t.assign ⟨f.path, .value (Scalar.ofText s)⟩) := by
  rw [load_eq, h.assignments_eq]
  rfl

/-- A variable on its own is the only setting of its environment. -/
theorem TextField.sole_singleton (f : TextField) (s : String) : f.Sole s [(f.variableName, s)] := by
  simp [TextField.Sole, f.path?_variableName]

/-- What is put beside a text setting in a table stays beside it. -/
theorem TextField.beside_assign (f : TextField) (content : Content) (t : Tree) (base : Settings) :
    f.beside (t.assign ⟨f.path, content⟩) base = base := by
  have htable (name : String) :
      namedPrefixes (t.assign ⟨[.name "prefixes", .name name], content⟩) base.prefixes =
        base.prefixes := by
    obtain ⟨es, hes⟩ := Tree.find?_assign_above content "prefixes" name [] t
    simp [namedPrefixes, listsPrefixes, hes]
  cases f with
  | database | logFilter => rfl
  | owner => exact congrArg (fun prefixes => { base with prefixes }) (htable "owner")
  | qualifier => exact congrArg (fun prefixes => { base with prefixes }) (htable "qualifier")
  | moduleQualifier =>
    exact congrArg (fun prefixes => { base with prefixes }) (htable "module_qualifier")

/-- What the defaults and a document give beside a text setting. -/
inductive TextField.Given (f : TextField) (document : Option String) : Settings → Prop where
  /-- What they give on their own; prefixes in a list have no names and count for nothing beside one
  that is put in by name. -/
  | unset {t : Tree} {base : Settings} (ht : layered document = .ok t)
      (h : load document [] = .ok base) : Given f document (f.beside t base)
  /-- What they give when the variable holds some text, which may stand for one that they give the
  setting and that it cannot have. -/
  | set {r : String} {base : Settings} (h : load document [(f.variableName, r)] = .ok base) :
      Given f document base

/-- With only a text setting in the environment, settings are loaded whenever the defaults and the
document give the other ones, and these are as they are given. -/
theorem load_of_given {f : TextField} {s : String} {document : Option String}
    {env : List Environment.Variable} (hsole : f.Sole s env) (h : f.Given document base) :
    load document env = .ok (f.put base (Scalar.ofText s).shown) := by
  rw [load_of_sole hsole]
  cases h with
  | @unset t base ht h =>
    rw [load_eq, ht] at h
    rw [ht]
    exact ofTree_assign f _ h
  | @set r base h =>
    rw [load_of_sole (f.sole_singleton r)] at h
    obtain ⟨t, ht, hbase⟩ := bind_eq_ok_iff.mp h
    have hput := ofTree_assign f (Scalar.ofText s) hbase
    rw [f.beside_assign, TextField.path, Tree.assign_assign_value] at hput
    rw [ht]
    exact hput

/-- For every text setting, every text in its variable and every document, with no other setting in
the environment: settings are loaded whenever the defaults and the document give the other settings,
these are as they are given, and the text setting is what the text is read as, written out. In all
settings that are loaded, the text setting is the text of the variable exactly when the text, if it
is read as a truth value, an integer or a floating-point number, is the one that this is written
with. -/
theorem load_text_iff (f : TextField) (s : String) (document : Option String)
    (env : List Environment.Variable) (hsole : f.Sole s env) :
    (∀ base, f.Given document base →
      load document env = .ok (f.put base (Scalar.ofText s).shown)) ∧
    (∀ loaded, load document env = .ok loaded → (f.get loaded = s ↔ Scalar.Verbatim s)) := by
  refine ⟨fun base h => load_of_given hsole h, fun loaded h => ?_⟩
  have hsame : load document [(f.variableName, s)] = .ok loaded := by
    rw [load_of_sole (f.sole_singleton s), ← load_of_sole hsole, h]
  have hput := load_of_given hsole (.set hsame)
  rw [h] at hput
  rw [Except.ok.inj hput, TextField.get_put]
  exact Scalar.shown_ofText_eq_iff s

/-- A document that qualifies the tables. -/
def qualifying : Option String := some "[prefixes]\nqualifier = 'acct'\n"

/-- An environment whose only setting is an owner that looks like a number. -/
def numeralOwner : List Environment.Variable :=
  [("PATH", "/bin"), (TextField.owner.variableName, "1e3")]

/-- The owner `1e3` is read as a number and written out, beside the qualifier of the document. -/
theorem load_text_iff_exponent :
    TextField.owner.Sole "1e3" numeralOwner ∧
      load qualifying numeralOwner = .ok ⟨"memory", 5000, none, "info", ⟨"1000", "acct", ""⟩⟩ ∧
      ¬Scalar.Verbatim "1e3" := by
  have hsole : TextField.owner.Sole "1e3" numeralOwner := by
    unfold TextField.Sole
    decide
  have htree : layered qualifying = .ok (.table [("database", .leaf (.text "memory")),
      ("busy_timeout_ms", .leaf (.integer 5000)), ("log_filter", .leaf (.text "info")),
      ("prefixes", .table [("qualifier", .leaf (.text "acct"))])]) := by rfl
  have hdocument : load qualifying [] = .ok ⟨"memory", 5000, none, "info", ⟨"", "acct", ""⟩⟩ := by
    rfl
  have hshown : (Scalar.ofText "1e3").shown = "1000" := by decide +kernel
  obtain ⟨hgiven, hexact⟩ := load_text_iff .owner "1e3" qualifying numeralOwner hsole
  have hloaded := hgiven _ (.unset htree hdocument)
  rw [hshown] at hloaded
  refine ⟨hsole, hloaded, fun hverbatim => ?_⟩
  exact absurd ((hexact _ hloaded).mpr hverbatim) (by decide)

/-- A database `007` of the environment is not the one that is opened. -/
theorem load_text_leading_zeros :
    (load none [("SQLFORGE_DATABASE", "007")]).map Settings.database = .ok "7" := by
  decide +kernel

end BoundSql.Settings
