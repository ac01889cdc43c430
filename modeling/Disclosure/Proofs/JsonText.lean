import Disclosure.Value.Json

/-!
# Disclosure.Proofs.JsonText — what a JSON document says

`Json.Spells v cs` says that the characters `cs` are a JSON document for the value `v`.  The rules are those of the
format: brackets, commas and colons, blanks around every token, escapes in strings, numbers with a fraction or an
exponent, and the fields of an object in any order.  They know nothing of how `Value.json` lays a document out, nor with
which digits it writes a number: any numeral stands for the number that is nearest to it.

* `Value.IsJson`: data that a JSON file can hold.
* `Json.Numeral`: the numerals with a fraction or an exponent.
* `Json.Spells.noEscape`: a document never holds an escape character.
-/

namespace Disclosure

/-! ### Data that have JSON -/

/-- A scalar that a JSON file can hold: no date, no bytes, and no number without a numeral. -/
def Scalar.IsJson : Scalar → Prop
  | .null | .bool _ | .text _ | .float (.finite _) | .float .negativeZero => True
  | .int n => (Scalar.int n).isShowable = true
  | .float _ | .undefined _ | .bytes _ | .date _ | .moment _ => False

namespace Value

mutual

/-- Data that a JSON file can hold: all fields are named by texts, and nothing stands inside itself. -/
def IsJson : Value → Prop
  | .scalar s => s.IsJson
  | .list items => AreJson items
  | .object fields => FieldsJson fields
  | .pair .. | .set _ | .knot .. | .again _ => False

/-- Every item is JSON data. -/
def AreJson : List Value → Prop
  | [] => True
  | v :: rest => v.IsJson ∧ AreJson rest

/-- Every field is named by a text and holds JSON data. -/
def FieldsJson : List (Scalar × Value) → Prop
  | [] => True
  | (name, v) :: rest => (∃ t, name = .text t) ∧ v.IsJson ∧ FieldsJson rest

end

theorem areJson_iff {items : List Value} : AreJson items ↔ ∀ v ∈ items, v.IsJson := by
  induction items with
  | nil => simp [AreJson]
  | cons v rest ih => simp [AreJson, ih]

theorem fieldsJson_iff {fields : List (Scalar × Value)} :
    FieldsJson fields ↔ ∀ f ∈ fields, (∃ t, f.1 = .text t) ∧ f.2.IsJson := by
  induction fields with
  | nil => simp [FieldsJson]
  | cons f rest ih =>
    obtain ⟨name, v⟩ := f
    simp [FieldsJson, ih, and_assoc]

end Value

/-! ### The grammar -/

namespace Json

/-- Characters that may stand around every token. -/
def Blanks (cs : List Char) : Prop := ∀ c ∈ cs, c = ' ' ∨ c = '\n' ∨ c = '\r' ∨ c = '\t'

/-- The characters with an escape of their own, after the mark that stands for them. -/
def marks : List (Char × Char) :=
  [('"', '"'), ('\\', '\\'), ('/', '/'), ('b', '\x08'), ('f', '\x0c'), ('n', '\n'), ('r', '\r'), ('t', '\t')]

/-- Four hexadecimal digits for a number. -/
def Unit (n : Nat) (digits : List Char) : Prop := digits.length = 4 ∧ Text.natural? 16 digits = some n

/-- One code point between quotes: as it is, by a mark, by its number, or by the numbers of a surrogate pair. -/
inductive Letter : CodePoint → List Char → Prop
  | plain {c : Char} : 0x20 ≤ c.toNat → c ≠ '"' → c ≠ '\\' → Letter (.char c) [c]
  | marked {mark c : Char} : (mark, c) ∈ marks → Letter (.char c) ['\\', mark]
  | numbered {p : CodePoint} {digits : List Char} : Unit p.toNat digits → Letter p ('\\' :: 'u' :: digits)
  | paired {c : Char} {high low : Nat} {first second : List Char} :
      Unit (0xd800 + high) first → Unit (0xdc00 + low) second → high < 0x400 → low < 0x400 →
        c.toNat = 0x10000 + high * 0x400 + low → Letter (.char c) ('\\' :: 'u' :: first ++ '\\' :: 'u' :: second)

/-- The code points of a text, one after another. -/
inductive Letters : Text → List Char → Prop
  | nil : Letters [] []
  | cons {p : CodePoint} {t : Text} {cs ds : List Char} : Letter p cs → Letters t ds → Letters (p :: t) (cs ++ ds)

/-- A text between quotes. -/
def Quoted (t : Text) (cs : List Char) : Prop := ∃ inner, Letters t inner ∧ cs = '"' :: inner ++ ['"']

/-- Decimal digits. -/
def AreDigits (cs : List Char) : Prop := ∀ c ∈ cs, c.isDigit = true

/-- The whole part of a numeral: digits, and no zero in front of others. -/
structure Whole (cs : List Char) : Prop where
  digits : AreDigits cs
  nonempty : cs ≠ []
  leading : cs.head? = some '0' → cs = ['0']

/-- The digits of a fraction, and how it is written: nothing, or a point and the digits. -/
inductive Fraction : List Char → List Char → Prop
  | none : Fraction [] []
  | digits {cs : List Char} : AreDigits cs → cs ≠ [] → Fraction cs ('.' :: cs)

/-- A power of ten, and how it is written: nothing, or a mark, perhaps a sign, and digits. -/
inductive Exponent : Int → List Char → Prop
  | none : Exponent 0 []
  | unsigned {mark : Char} {cs : List Char} : mark = 'e' ∨ mark = 'E' → AreDigits cs → cs ≠ [] →
      Exponent (Nat.ofDigitChars 10 cs 0) (mark :: cs)
  | plus {mark : Char} {cs : List Char} : mark = 'e' ∨ mark = 'E' → AreDigits cs → cs ≠ [] →
      Exponent (Nat.ofDigitChars 10 cs 0) (mark :: '+' :: cs)
  | minus {mark : Char} {cs : List Char} : mark = 'e' ∨ mark = 'E' → AreDigits cs → cs ≠ [] →
      Exponent (-(Nat.ofDigitChars 10 cs 0 : Int)) (mark :: '-' :: cs)

/-- A numeral with a fraction or an exponent for `digits * 10 ^ exponent`, with a sign. -/
def Numeral (negative : Bool) (digits : Nat) (exponent : Int) (cs : List Char) : Prop :=
  ∃ whole fraction point power mark, Whole whole ∧ Fraction fraction point ∧ Exponent power mark ∧ point ++ mark ≠ [] ∧
    digits = Nat.ofDigitChars 10 (whole ++ fraction) 0 ∧ exponent = power - fraction.length ∧
    cs = (if negative then ['-'] else []) ++ whole ++ point ++ mark

/-- A value without parts.  A number with a point is written as a numeral that is read as that number; for a dyadic
number with too many bits, as the number that it is rounded to. -/
inductive Atom : Scalar → List Char → Prop
  | null : Atom .null "null".toList
  | false : Atom (.bool false) "false".toList
  | true : Atom (.bool true) "true".toList
  | int (n : Int) : Atom (.int n) (Int.repr n).toList
  | finite {value : Dyadic} {negative : Bool} {digits : Nat} {exponent : Int} {cs : List Char} :
      Numeral negative digits exponent cs → Binary64.ofDecimal negative digits exponent = Binary64.round value →
        Atom (.float (.finite value)) cs
  | negativeZero {digits : Nat} {exponent : Int} {cs : List Char} :
      Numeral true digits exponent cs → Binary64.ofDecimal true digits exponent = .negativeZero →
        Atom (.float .negativeZero) cs
  | text {t : Text} {cs : List Char} : Quoted t cs → Atom (.text t) cs

/-- Parts with commas between them and blanks around each. -/
inductive Joined : List (List Char) → List Char → Prop
  | none {cs : List Char} : Blanks cs → Joined [] cs
  | last {before part after : List Char} : Blanks before → Blanks after → Joined [part] (before ++ part ++ after)
  | more {before part after next cs : List Char} {rest : List (List Char)} :
      Blanks before → Blanks after → Joined (next :: rest) cs →
        Joined (part :: next :: rest) (before ++ part ++ after ++ ',' :: cs)

mutual

/-- A value, without blanks around it.  The fields of an object stand in any order. -/
inductive Spells : Value → List Char → Prop
  | atom {s : Scalar} {cs : List Char} : Atom s cs → Spells (.scalar s) cs
  | list {items : List Value} {parts : List (List Char)} {cs : List Char} :
      SpellsEach items parts → Joined parts cs → Spells (.list items) ('[' :: cs ++ [']'])
  | object {fields ordered : List (Scalar × Value)} {parts : List (List Char)} {cs : List Char} :
      ordered.Perm fields → SpellsFields ordered parts → Joined parts cs →
        Spells (.object fields) ('\x7b' :: cs ++ ['\x7d'])

/-- Values, one by one. -/
inductive SpellsEach : List Value → List (List Char) → Prop
  | nil : SpellsEach [] []
  | cons {v : Value} {rest : List Value} {part : List Char} {parts : List (List Char)} :
      Spells v part → SpellsEach rest parts → SpellsEach (v :: rest) (part :: parts)

/-- Fields, one by one: a name, a colon, a value. -/
inductive SpellsFields : List (Scalar × Value) → List (List Char) → Prop
  | nil : SpellsFields [] []
  | cons {t : Text} {v : Value} {rest : List (Scalar × Value)} {name before after cs : List Char}
      {parts : List (List Char)} :
      Quoted t name → Blanks before → Blanks after → Spells v cs → SpellsFields rest parts →
        SpellsFields ((.text t, v) :: rest) ((name ++ before ++ ':' :: (after ++ cs)) :: parts)

end

/-- A document for a value: the value with blanks around it. -/
def Document (v : Value) (cs : List Char) : Prop :=
  ∃ before core after, Blanks before ∧ Spells v core ∧ Blanks after ∧ cs = before ++ core ++ after

/-! ### No escape characters -/

/-- No character of the list is the escape character of a terminal. -/
def Tame (cs : List Char) : Prop := '\x1b' ∉ cs

instance (cs : List Char) : Decidable (Tame cs) := inferInstanceAs (Decidable (¬ _))

theorem tame_append {cs ds : List Char} : Tame (cs ++ ds) ↔ Tame cs ∧ Tame ds := by
  simp [Tame, not_or]

theorem tame_cons {c : Char} {cs : List Char} : Tame (c :: cs) ↔ c ≠ '\x1b' ∧ Tame cs := by
  simp [Tame, not_or, ne_comm]

theorem tame_nil : Tame [] := by simp [Tame]

theorem Blanks.tame {cs : List Char} (h : Blanks cs) : Tame cs := by
  intro hmem
  rcases h _ hmem with h | h | h | h <;> exact absurd h (by decide)

/-- Every character that is read as a digit is one. -/
theorem isSome_hexValue?_of_foldlM {base n m : Nat} {digits : List Char}
    (h : digits.foldlM (fun n c => (Text.hexValue? c).bind (fun d => if d < base then some (n * base + d) else none)) n
      = some m) : ∀ c ∈ digits, (Text.hexValue? c).isSome = true := by
  induction digits generalizing n with
  | nil => simp
  | cons d rest ih =>
    rw [List.foldlM_cons] at h
    obtain ⟨k, hk, hrest⟩ := Option.bind_eq_some_iff.1 h
    obtain ⟨v, hv, -⟩ := Option.bind_eq_some_iff.1 hk
    intro c hc
    rcases List.mem_cons.1 hc with rfl | hc
    · rw [hv]
      rfl
    · exact ih hrest c hc

theorem Unit.tame {n : Nat} {digits : List Char} (h : Unit n digits) : Tame digits := by
  obtain ⟨-, hn⟩ := h
  unfold Text.natural? at hn
  split at hn
  · simp at hn
  · intro hmem
    have hdigit := isSome_hexValue?_of_foldlM hn _ hmem
    exact absurd hdigit (by decide)

theorem Letter.tame {p : CodePoint} {cs : List Char} (h : Letter p cs) : Tame cs := by
  cases h with
  | @plain c hc _ _ =>
    rw [tame_cons]
    refine ⟨?_, tame_nil⟩
    rintro rfl
    exact absurd hc (by decide)
  | @marked mark c hm =>
    rw [tame_cons, tame_cons]
    refine ⟨by decide, ?_, tame_nil⟩
    rintro rfl
    exact absurd hm (by simp [marks])
  | numbered hu => exact tame_cons.2 ⟨by decide, tame_cons.2 ⟨by decide, hu.tame⟩⟩
  | paired hfirst hsecond _ _ _ =>
    simp only [List.cons_append, tame_cons, tame_append]
    exact ⟨by decide, by decide, hfirst.tame, by decide, by decide, hsecond.tame⟩

theorem Letters.tame {t : Text} {cs : List Char} (h : Letters t cs) : Tame cs := by
  induction h with
  | nil => exact tame_nil
  | cons hp _ ih => exact tame_append.2 ⟨hp.tame, ih⟩

theorem Quoted.tame {t : Text} {cs : List Char} (h : Quoted t cs) : Tame cs := by
  obtain ⟨inner, hinner, rfl⟩ := h
  simp only [List.cons_append, tame_cons, tame_append]
  exact ⟨by decide, hinner.tame, by decide, tame_nil⟩

theorem AreDigits.tame {cs : List Char} (h : AreDigits cs) : Tame cs := by
  intro hmem
  exact absurd (h _ hmem) (by decide)

theorem areDigits_toDigits (n : Nat) : AreDigits (Nat.toDigits 10 n) :=
  fun _ hc => Nat.isDigit_of_mem_toDigits (by decide) (by decide) hc

theorem tame_repr (n : Int) : Tame (Int.repr n).toList := by
  cases n with
  | ofNat n => simpa [Int.repr, Nat.toList_repr] using (areDigits_toDigits n).tame
  | negSucc n =>
    have h : Tame ('-' :: Nat.toDigits 10 (n + 1)) := tame_cons.2 ⟨by decide, (areDigits_toDigits _).tame⟩
    simpa [Int.repr, Nat.toList_repr] using h

theorem Fraction.tame {digits cs : List Char} (h : Fraction digits cs) : Tame cs := by
  cases h with
  | none => exact tame_nil
  | digits hdigits _ => exact tame_cons.2 ⟨by decide, hdigits.tame⟩

theorem Exponent.tame {power : Int} {cs : List Char} (h : Exponent power cs) : Tame cs := by
  have hmark : ∀ {mark : Char}, mark = 'e' ∨ mark = 'E' → mark ≠ '\x1b' := by
    rintro mark (rfl | rfl) <;> decide
  cases h with
  | none => exact tame_nil
  | unsigned hm hdigits _ => exact tame_cons.2 ⟨hmark hm, hdigits.tame⟩
  | plus hm hdigits _ => exact tame_cons.2 ⟨hmark hm, tame_cons.2 ⟨by decide, hdigits.tame⟩⟩
  | minus hm hdigits _ => exact tame_cons.2 ⟨hmark hm, tame_cons.2 ⟨by decide, hdigits.tame⟩⟩

theorem Numeral.tame {negative : Bool} {digits : Nat} {exponent : Int} {cs : List Char}
    (h : Numeral negative digits exponent cs) : Tame cs := by
  obtain ⟨whole, fraction, point, power, mark, hwhole, hfraction, hexponent, -, -, -, rfl⟩ := h
  simp only [tame_append]
  refine ⟨⟨⟨?_, hwhole.digits.tame⟩, hfraction.tame⟩, hexponent.tame⟩
  cases negative <;> decide

theorem Atom.tame {s : Scalar} {cs : List Char} (h : Atom s cs) : Tame cs := by
  cases h with
  | int n => exact tame_repr n
  | finite hnumeral _ => exact hnumeral.tame
  | negativeZero hnumeral _ => exact hnumeral.tame
  | text ht => exact ht.tame
  | _ => decide

theorem Joined.tame {parts : List (List Char)} {cs : List Char} (h : Joined parts cs)
    (hparts : ∀ part ∈ parts, Tame part) : Tame cs := by
  induction h with
  | none hblanks => exact hblanks.tame
  | last hbefore hafter => exact tame_append.2 ⟨tame_append.2 ⟨hbefore.tame, hparts _ (by simp)⟩, hafter.tame⟩
  | more hbefore hafter _ ih =>
    have hrest := ih (fun part hpart => hparts part (by simp [hpart]))
    simp only [tame_append, tame_cons]
    exact ⟨⟨⟨hbefore.tame, hparts _ (by simp)⟩, hafter.tame⟩, by decide, hrest⟩

mutual

theorem Spells.tame {v : Value} {cs : List Char} : Spells v cs → Tame cs
  | .atom h => h.tame
  | .list h hjoined => tame_cons.2 ⟨by decide, tame_append.2 ⟨hjoined.tame h.tame, by decide⟩⟩
  | .object _ h hjoined => tame_cons.2 ⟨by decide, tame_append.2 ⟨hjoined.tame h.tame, by decide⟩⟩

theorem SpellsEach.tame {items : List Value} {parts : List (List Char)} :
    SpellsEach items parts → ∀ part ∈ parts, Tame part
  | .nil => by simp
  | .cons h hrest => List.forall_mem_cons.2 ⟨h.tame, hrest.tame⟩

theorem SpellsFields.tame {fields : List (Scalar × Value)} {parts : List (List Char)} :
    SpellsFields fields parts → ∀ part ∈ parts, Tame part
  | .nil => by simp
  | .cons hname hbefore hafter h hrest => by
    refine List.forall_mem_cons.2 ⟨?_, hrest.tame⟩
    simp only [tame_append, tame_cons]
    exact ⟨⟨hname.tame, hbefore.tame⟩, by decide, hafter.tame, h.tame⟩

end

end Json

end Disclosure
