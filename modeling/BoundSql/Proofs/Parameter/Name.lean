import BoundSql.Parameter.Set
import BoundSql.Proofs.Parameter.Token
import BoundSql.Proofs.Text.Numeral

/-!
# Generated names

A generated name is canonical once an at sign stands in front of it, and it tells the counter that
it was generated with: the suffix has six characters, and no digit in front of it is an underscore.
Names that were generated with different counters are therefore different, whatever hints and
suffixes they carry.
-/

namespace BoundSql

namespace Token

/-- No character of a token marks a name. -/
theorem isMarker_of_isWord {c : Char} (h : isWord c = true) : Parameter.isMarker c = false := by
  have hne {d : Char} (hd : isWord d = false) : c ≠ d := by
    rintro rfl
    exact Bool.noConfusion (hd.symm.trans h)
  have hat : c ≠ '@' := hne (by decide)
  have hcolon : c ≠ ':' := hne (by decide)
  have hdollar : c ≠ '$' := hne (by decide)
  have hquestion : c ≠ '?' := hne (by decide)
  simp [Parameter.isMarker, hat, hcolon, hdollar, hquestion]

/-- A digit can be part of a token. -/
theorem isWord_of_isDigit {c : Char} (h : Numeral.isDigit c = true) : isWord c = true := by
  unfold Numeral.isDigit at h
  simp [isWord, h]

end Token

namespace Parameter

/-- Characters that a token can carry are left as they are. -/
theorem map_safe_of_isWord {cs : List Char} (h : ∀ c ∈ cs, Token.isWord c = true) :
    cs.map safe = cs := by
  conv_rhs => rw [← List.map_id cs]
  exact List.map_congr_left fun c hc => if_pos (h c hc)

/-- Characters that a token can carry are canonical behind an at sign. -/
theorem canonicalWord_of_isWord {cs : List Char} (hne : cs ≠ [])
    (h : ∀ c ∈ cs, Token.isWord c = true) : canonicalWord cs = cs := by
  have hdrop : cs.dropWhile isMarker = cs := by
    cases cs with
    | nil => rfl
    | cons c rest =>
      have hc := Token.isMarker_of_isWord (h c List.mem_cons_self)
      exact List.dropWhile_cons_of_neg (by simp [hc])
  have hmap := map_safe_of_isWord h
  obtain ⟨c, rest, rfl⟩ := List.exists_cons_of_ne_nil hne
  simp only [canonicalWord, hdrop, hmap]

/-- Characters behind an at sign are canonical when a token can carry them. -/
theorem canonical_at_of_isWord {cs : List Char} (hne : cs ≠ [])
    (h : ∀ c ∈ cs, Token.isWord c = true) :
    canonical (String.ofList ('@' :: cs)) = String.ofList ('@' :: cs) := by
  have hat : canonicalWord ('@' :: cs) = canonicalWord cs := by
    have hmarker : isMarker '@' = true := by decide
    simp only [canonicalWord, List.dropWhile_cons_of_pos hmarker]
  rw [canonical, String.toList_ofList, hat, canonicalWord_of_isWord hne h]

/-- What a hint contributes can be part of a token. -/
theorem isWord_of_mem_hintWord {hint : String} {c : Char} (h : c ∈ hintWord hint) :
    Token.isWord c = true := by
  unfold hintWord at h
  split at h
  · rw [List.mem_singleton.mp h]
    decide
  · exact (List.mem_filter.mp h).2

end Parameter

namespace ParameterSet

/-- The characters of a generated name. -/
def generatedWord (hint : String) (counter : Nat) (suffix : Suffix) : List Char :=
  Parameter.hintWord hint ++ '_' :: (Numeral.digits counter ++ '_' :: suffix.chars)

/-- The name under which a value is bound when a counter and a suffix were drawn for a hint. -/
def drawnName (hint : String) (counter : Nat) (suffix : Suffix) : String :=
  String.ofList ('@' :: generatedWord hint counter suffix)

/-- A name that ends in an underscore, digits, an underscore and six letters or digits. -/
def IsGenerated (name : String) : Prop :=
  ∃ (front digits : List Char) (suffix : Suffix), digits ≠ [] ∧
    (∀ c ∈ digits, Numeral.isDigit c = true) ∧
    name.toList = front ++ '_' :: (digits ++ '_' :: suffix.chars)

/-- A generated name is not empty. -/
theorem generatedWord_ne_nil (hint : String) (counter : Nat) (suffix : Suffix) :
    generatedWord hint counter suffix ≠ [] := by
  simp [generatedWord]

/-- A generated name can be part of a token from end to end. -/
theorem isWord_of_mem_generatedWord {hint : String} {counter : Nat} {suffix : Suffix} {c : Char}
    (h : c ∈ generatedWord hint counter suffix) : Token.isWord c = true := by
  have hunderscore : Token.isWord '_' = true := by decide
  simp only [generatedWord, List.mem_append, List.mem_cons] at h
  rcases h with h | rfl | h | rfl | h
  · exact Parameter.isWord_of_mem_hintWord h
  · exact hunderscore
  · exact Token.isWord_of_isDigit (Numeral.isDigit_of_mem_digits h)
  · exact hunderscore
  · exact (Bool.and_eq_true_iff.mp (suffix.alphanumeric c h)).1

/-- The canonical form of a generated name has an at sign in front and is the same otherwise. -/
theorem canonical_generatedName (hint : String) (counter : Nat) (suffix : Suffix) :
    Parameter.canonical (generatedName hint counter suffix) = drawnName hint counter suffix := by
  have hword : (generatedName hint counter suffix).toList = generatedWord hint counter suffix :=
    String.toList_ofList
  rw [Parameter.canonical, hword,
    Parameter.canonicalWord_of_isWord (generatedWord_ne_nil hint counter suffix)
      fun _ hc => isWord_of_mem_generatedWord hc]
  rfl

/-- A drawn name is canonical. -/
theorem canonical_drawnName (hint : String) (counter : Nat) (suffix : Suffix) :
    Parameter.canonical (drawnName hint counter suffix) = drawnName hint counter suffix :=
  Parameter.canonical_at_of_isWord (generatedWord_ne_nil hint counter suffix)
    fun _ hc => isWord_of_mem_generatedWord hc

/-- A drawn name is a token from end to end. -/
theorem isReference_drawnName (hint : String) (counter : Nat) (suffix : Suffix) :
    Token.IsReference (drawnName hint counter suffix) :=
  ⟨_, generatedWord_ne_nil hint counter suffix, fun _ hc => isWord_of_mem_generatedWord hc, rfl⟩

/-- A drawn name has the shape of a generated one. -/
theorem isGenerated_drawnName (hint : String) (counter : Nat) (suffix : Suffix) :
    IsGenerated (drawnName hint counter suffix) := by
  refine ⟨'@' :: Parameter.hintWord hint, Numeral.digits counter, suffix,
    Numeral.digits_ne_nil counter, fun c hc => Numeral.isDigit_of_mem_digits hc, ?_⟩
  rw [drawnName, String.toList_ofList, generatedWord, List.cons_append]

/-- A name of the generated shape has an underscore in front of its last six characters. -/
theorem IsGenerated.getElem?_reverse {name : String} (h : IsGenerated name) :
    name.toList.reverse[6]? = some '_' := by
  obtain ⟨front, digits, suffix, -, -, hname⟩ := h
  have hlength : suffix.chars.reverse.length = 6 := by
    rw [List.length_reverse, suffix.length_eq]
  rw [hname]
  simp only [List.reverse_append, List.reverse_cons, List.append_assoc, List.singleton_append]
  rw [List.getElem?_append_right (by omega), hlength]
  rfl

/-- What stands behind the last underscore of a text is determined by the text. -/
theorem eq_of_append_underscore_eq {front front' back back' : List Char}
    (hback : '_' ∉ back) (hback' : '_' ∉ back')
    (h : front ++ '_' :: back = front' ++ '_' :: back') : back = back' := by
  have htail (front : List Char) {back : List Char} (hback : '_' ∉ back) :
      (front ++ '_' :: back).reverse.takeWhile (· != '_') = back.reverse := by
    have hne : ∀ c ∈ back.reverse, (c != '_') = true := fun c hc =>
      bne_iff_ne.mpr fun heq => hback (heq ▸ List.mem_reverse.mp hc)
    rw [List.reverse_append, List.reverse_cons, List.append_assoc, List.takeWhile_append_of_pos hne]
    simp
  have hreverse := htail front hback
  rw [h, htail front' hback'] at hreverse
  exact (List.reverse_injective hreverse).symm

/-- A drawn name tells its counter. -/
theorem counter_eq_of_drawnName_eq {hint hint' : String} {counter counter' : Nat}
    {suffix suffix' : Suffix}
    (h : drawnName hint counter suffix = drawnName hint' counter' suffix') :
    counter = counter' := by
  have hword : generatedWord hint counter suffix = generatedWord hint' counter' suffix' :=
    (List.cons.inj (String.ofList_injective h)).2
  have hsplit (hint : String) (counter : Nat) (suffix : Suffix) :
      generatedWord hint counter suffix =
        (Parameter.hintWord hint ++ '_' :: Numeral.digits counter) ++ '_' :: suffix.chars := by
    simp [generatedWord]
  have hdigits (counter : Nat) : '_' ∉ Numeral.digits counter := fun hmem =>
    absurd (Numeral.isDigit_of_mem_digits hmem) (by decide)
  have hlen : ('_' :: suffix.chars).length = ('_' :: suffix'.chars).length := by
    rw [List.length_cons, List.length_cons, suffix.length_eq, suffix'.length_eq]
  rw [hsplit, hsplit] at hword
  have hfront := (List.append_inj' hword hlen).1
  have heq := eq_of_append_underscore_eq (hdigits counter) (hdigits counter') hfront
  rw [← Numeral.value_digits counter, heq, Numeral.value_digits]

end ParameterSet

end BoundSql
