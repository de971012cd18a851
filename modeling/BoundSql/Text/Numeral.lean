/-!
# Decimal numerals

Numbers are written with the ASCII digits, without leading zeros, and read back from a run of
ASCII digits behind an optional sign. Writing and reading face each other over lists of
characters. Long numerals are written and read in blocks that are halved again and again; the
digits are those of repeated division by ten, and the number is the one that the digits add up to
one by one.
-/

-- Powers are those of the core library throughout, so that a definition means the same beside a
-- library that brings powers of its own.
attribute [instance (high + 1), default_instance (high + 1)] instPowNat

namespace BoundSql.Numeral

/-- Whether a character is one of the ten ASCII digits. -/
def isDigit (c : Char) : Bool :=
  '0' ≤ c && c ≤ '9'

/-- The digit that stands for a number below ten. -/
def digit (n : Nat) : Char :=
  Char.ofNat (48 + n)

/-- The number an ASCII digit stands for. -/
def digitValue (c : Char) : Nat :=
  c.toNat - 48

/-- The decimal digits of a number, most significant first, in front of a text. -/
def digitsOnto (n : Nat) (rest : List Char) : List Char :=
  if n < 10 then digit n :: rest else digitsOnto (n / 10) (digit (n % 10) :: rest)
termination_by n
decreasing_by omega

/-- A given count of the last digits of a number, in front of a text. -/
def lastDigitsOnto : Nat → Nat → List Char → List Char
  | 0, _, rest => rest
  | width + 1, n, rest => lastDigitsOnto width (n / 10) (digit (n % 10) :: rest)

/-- How many digits a block has that has been doubled a number of times. -/
def blockWidth (doublings : Nat) : Nat :=
  16 * 2 ^ doublings

/-- As many of the last digits of a number as a block has, in front of a text. A block is written as
its two halves. -/
def blockOnto : Nat → Nat → List Char → List Char
  | 0, n, rest => lastDigitsOnto (blockWidth 0) n rest
  | doublings + 1, n, rest =>
    let half := 10 ^ blockWidth doublings
    blockOnto doublings (n / half) (blockOnto doublings (n % half) rest)

/-- The decimal digits of a number, most significant first, in front of a text, a block at a time,
the larger blocks last. -/
def blocksOnto : Nat → Nat → List Char → List Char
  | 0, n, rest => digitsOnto n rest
  | doublings + 1, n, rest =>
    let half := 10 ^ blockWidth doublings
    if n < half then blocksOnto doublings n rest
    else blocksOnto doublings (n / half) (blockOnto doublings (n % half) rest)

/-- The last digits depend on the remainder only. -/
theorem lastDigitsOnto_mod (width n : Nat) (rest : List Char) :
    lastDigitsOnto width (n % 10 ^ width) rest = lastDigitsOnto width n rest := by
  induction width generalizing n rest with
  | zero => rfl
  | succ width ih =>
    have hp : 10 ^ (width + 1) = 10 * 10 ^ width := by rw [Nat.pow_succ, Nat.mul_comm]
    simp only [lastDigitsOnto, hp, Nat.mod_mul_right_div_self, Nat.mod_mul_right_mod, ih]

/-- The last digits are those further to the left and then those further to the right. -/
theorem lastDigitsOnto_add (left right n : Nat) (rest : List Char) :
    lastDigitsOnto (left + right) n rest =
      lastDigitsOnto left (n / 10 ^ right) (lastDigitsOnto right n rest) := by
  induction right generalizing n rest with
  | zero => simp [lastDigitsOnto]
  | succ right ih =>
    have hp : 10 ^ (right + 1) = 10 * 10 ^ right := by rw [Nat.pow_succ, Nat.mul_comm]
    rw [← Nat.add_assoc, lastDigitsOnto, ih, lastDigitsOnto, hp, Nat.div_div_eq_div_mul]

/-- The last digits of a number stand behind the digits of what is left of it. -/
theorem digitsOnto_of_le (width n : Nat) (rest : List Char) (h : 10 ^ width ≤ n) :
    digitsOnto n rest = digitsOnto (n / 10 ^ width) (lastDigitsOnto width n rest) := by
  induction width generalizing n rest with
  | zero => simp [lastDigitsOnto]
  | succ width ih =>
    have hp : 10 ^ (width + 1) = 10 * 10 ^ width := by rw [Nat.pow_succ, Nat.mul_comm]
    have hpos : 0 < 10 ^ width := Nat.pow_pos (by decide)
    rw [hp] at h
    have hn : ¬n < 10 := by omega
    rw [digitsOnto, if_neg hn, ih (n / 10) _ (by omega), hp, Nat.div_div_eq_div_mul]
    rfl

/-- A block doubled once more is twice as wide. -/
theorem blockWidth_succ (doublings : Nat) :
    blockWidth (doublings + 1) = blockWidth doublings + blockWidth doublings := by
  rw [blockWidth, blockWidth, Nat.pow_succ]
  omega

/-- A block holds the last digits. -/
theorem blockOnto_eq_lastDigitsOnto (doublings n : Nat) (rest : List Char) :
    blockOnto doublings n rest = lastDigitsOnto (blockWidth doublings) n rest := by
  induction doublings generalizing n rest with
  | zero => rfl
  | succ doublings ih =>
    rw [blockOnto, ih, ih, lastDigitsOnto_mod, blockWidth_succ, lastDigitsOnto_add]

/-- A block at a time or one by one, the digits are the same. -/
theorem blocksOnto_eq_digitsOnto (doublings n : Nat) (rest : List Char) :
    blocksOnto doublings n rest = digitsOnto n rest := by
  induction doublings generalizing n rest with
  | zero => rfl
  | succ doublings ih =>
    simp only [blocksOnto]
    split
    · exact ih n rest
    · rename_i h
      rw [ih, blockOnto_eq_lastDigitsOnto, lastDigitsOnto_mod,
        digitsOnto_of_le (blockWidth doublings) n rest (Nat.le_of_not_lt h)]

/-- The decimal digits of a number, most significant first; zero is written as one digit. The
largest block that can occur grows with the number. -/
def digits (n : Nat) : List Char :=
  blocksOnto ((n.log2 / 50).log2 + 1) n []

/-- The digits are those that repeated division by ten leaves. -/
theorem digits_eq_digitsOnto (n : Nat) : digits n = digitsOnto n [] :=
  blocksOnto_eq_digitsOnto _ n []

/-- The number that digits denote behind a number that is already known. Digit by digit, every digit
adds itself to ten times what came before it. -/
def valueFrom (n : Nat) (cs : List Char) : Nat :=
  cs.foldl (fun n c => 10 * n + digitValue c) n

/-- The number that digits denote, read a block at a time. A block is read as its two halves. -/
def blockValue : Nat → List Char → Nat
  | 0, cs => valueFrom 0 cs
  | doublings + 1, cs =>
    let half := blockWidth doublings
    if cs.length ≤ half then blockValue doublings cs
    else
      let left := cs.length - half
      blockValue doublings (cs.take left) * 10 ^ half + blockValue doublings (cs.drop left)

/-- Digits behind a known number move it to the left by as many places as there are digits. -/
theorem valueFrom_eq_add (n : Nat) (cs : List Char) :
    valueFrom n cs = n * 10 ^ cs.length + valueFrom 0 cs := by
  induction cs generalizing n with
  | nil => simp [valueFrom]
  | cons c rest ih =>
    have hn := ih (10 * n + digitValue c)
    have hc := ih (digitValue c)
    simp only [valueFrom, List.foldl_cons, Nat.mul_zero, Nat.zero_add] at hn hc ⊢
    rw [hn, hc, List.length_cons, Nat.pow_succ, Nat.add_mul, Nat.add_assoc, Nat.mul_comm 10 n,
      Nat.mul_assoc, Nat.mul_comm 10 (10 ^ rest.length)]

/-- Digits in two runs denote what the first run denotes, moved to the left, and what the second run
denotes. -/
theorem valueFrom_append (n : Nat) (cs ds : List Char) :
    valueFrom n (cs ++ ds) = valueFrom n cs * 10 ^ ds.length + valueFrom 0 ds := by
  have hrun : valueFrom n (cs ++ ds) = valueFrom (valueFrom n cs) ds := List.foldl_append
  rw [hrun, valueFrom_eq_add]

/-- A block at a time or one by one, digits denote the same number. -/
theorem blockValue_eq_valueFrom (doublings : Nat) (cs : List Char) :
    blockValue doublings cs = valueFrom 0 cs := by
  induction doublings generalizing cs with
  | zero => rfl
  | succ doublings ih =>
    simp only [blockValue]
    split
    · exact ih cs
    · rename_i h
      have hlen : (cs.drop (cs.length - blockWidth doublings)).length = blockWidth doublings := by
        rw [List.length_drop]
        omega
      have happ := valueFrom_append 0 (cs.take (cs.length - blockWidth doublings))
        (cs.drop (cs.length - blockWidth doublings))
      rw [List.take_append_drop, hlen] at happ
      rw [ih, ih, happ]

/-- The number a run of digits denotes by position. The largest block grows with the run. -/
def value (cs : List Char) : Nat :=
  blockValue ((cs.length / 16).log2 + 1) cs

/-- The number is the one that the digits add up to one by one. -/
theorem value_eq_valueFrom (cs : List Char) : value cs = valueFrom 0 cs :=
  blockValue_eq_valueFrom _ cs

/-- The digits of a number with zeros in front up to a given width. -/
def padded (width n : Nat) : List Char :=
  let ds := digits n
  List.replicate (width - ds.length) '0' ++ ds

/-- An integer with a minus sign in front when it is negative. -/
def signed (n : Int) : List Char :=
  if n < 0 then '-' :: digits n.natAbs else digits n.natAbs

/-- Reads a non-empty run of digits that takes up the whole text. -/
def natural? (cs : List Char) : Option Nat :=
  if cs ≠ [] ∧ cs.all isDigit then some (value cs) else none

/-- Reads one optional sign and then a non-empty run of digits, up to the end of the text. -/
def integer? : List Char → Option Int
  | '-' :: rest => (natural? rest).map fun n => -(n : Int)
  | '+' :: rest => (natural? rest).map fun n => (n : Int)
  | cs => (natural? cs).map fun n => (n : Int)

/-- An integer as a signed word of sixty-four bits, when it lies in their range. -/
def word? (n : Int) : Option Int64 :=
  if -(2 ^ 63) ≤ n ∧ n < 2 ^ 63 then some (Int64.ofInt n) else none

/-- Reads a signed word of sixty-four bits: an integer within range. -/
def readWord? (cs : List Char) : Option Int64 :=
  (integer? cs).bind word?

/-- Reads an unsigned word of sixty-four bits: one optional plus sign and then digits. -/
def readUnsigned? (cs : List Char) : Option UInt64 :=
  let ds := match cs with
    | '+' :: rest => rest
    | cs => cs
  (natural? ds).bind fun n => if n < 2 ^ 64 then some (UInt64.ofNat n) else none

/-- The longest run of digits at the front of a text, and what follows it. -/
def spanDigits (cs : List Char) : List Char × List Char :=
  (cs.takeWhile isDigit, cs.dropWhile isDigit)

end BoundSql.Numeral
