import Mathlib.Data.List.Induction
import PenPlot.Proofs.Reading
import PenPlot.Proofs.Spaced

/-!
# The language of commands

`Denotes` says which words stand for which command: a keyword in any case, then the arguments one by one,
then anything at all, unless the command has no arguments. An integer is written in decimal with at most one
sign, and has to be one of 32 bits (`IsInteger`); everything else is a name in any case (`Spells`).

A line reads as a command just if its words denote it (`parse_eq_ok_iff`). What the table of slots asks for
is settled for one slot (`Slot.read?_eq_some_iff`) and then for a list of them (`readArgs_eq_ok_iff`).
-/

namespace PenPlot

open Text

/-! ## Names -/

/-- The word is the name, each letter in either case. -/
def Spells (word name : String) : Prop :=
  fold word.toList = fold name.toList

theorem sameLetters_iff {word name : String} : sameLetters word name = true ↔ Spells word name :=
  beq_iff_eq

theorem Keyword.ofName?_iff {word : String} {k : Keyword} : ofName? word = some k ↔ Spells word k.name := by
  rw [ofName?_eq_some_iff, Spells, fold_name]

theorem Pen.ofName?_iff {word : String} {pen : Pen} : ofName? word = some pen ↔ Spells word pen.name := by
  constructor
  · intro h
    unfold ofName? at h
    exact sameLetters_iff.mp (by simpa using List.find?_some h)
  · intro h
    have hsame : ofName? word = ofName? pen.name := by
      unfold ofName? sameLetters
      rw [show fold word.toList = fold pen.name.toList from h]
    rw [hsame, ofName?_name]

theorem Toggle.ofName?_iff {word : String} {on : Bool} :
    ofName? word = some on ↔ Spells word (name on) := by
  constructor
  · intro h
    unfold ofName? at h
    split_ifs at h with hon hoff
    · cases h
      exact sameLetters_iff.mp hon
    · cases h
      exact sameLetters_iff.mp hoff
  · intro h
    have hsame : ofName? word = ofName? (name on) := by
      unfold ofName? sameLetters
      rw [show fold word.toList = fold (name on).toList from h]
    rw [hsame, ofName?_name]

/-! ## Integers -/

/-- The number that digits stand for when the lowest comes first. -/
def lowestFirst : List Char → Nat
  | [] => 0
  | c :: cs => (c.toNat - '0'.toNat) + 10 * lowestFirst cs

/-- The number that digits stand for in decimal. -/
def digitsValue (cs : List Char) : Nat :=
  lowestFirst cs.reverse

def IsDigits (cs : List Char) : Prop :=
  cs ≠ [] ∧ ∀ c ∈ cs, c.isDigit = true

/-- A number of any size; zeros may come first. -/
inductive Numeral : List Char → Int → Prop
  | plain {digits : List Char} : IsDigits digits → Numeral digits (digitsValue digits)
  | plus {digits : List Char} : IsDigits digits → Numeral ('+' :: digits) (digitsValue digits)
  | minus {digits : List Char} : IsDigits digits → Numeral ('-' :: digits) (-(digitsValue digits))

/-- A number that 32 bits can hold. -/
def IsInteger (word : String) (i : Int32) : Prop :=
  ∃ n : Int, Numeral word.toList n ∧ -2147483648 ≤ n ∧ n ≤ 2147483647 ∧ i = Int32.ofInt n

theorem ofDigitChars_eq (cs : List Char) : Nat.ofDigitChars 10 cs 0 = digitsValue cs := by
  unfold digitsValue
  -- a digit is read behind those that stand before it
  induction cs using List.reverseRecOn with
  | nil => rfl
  | append_singleton cs c ih =>
    rw [Nat.ofDigitChars_append, Nat.ofDigitChars_cons, Nat.ofDigitChars_nil, ih,
      List.reverse_append, List.reverse_singleton, List.singleton_append, lowestFirst, Nat.add_comm]

theorem readNat?_eq_some_iff {cs : List Char} {n : Nat} :
    Decimal.readNat? cs = some n ↔ IsDigits cs ∧ digitsValue cs = n := by
  have hall : cs ≠ [] ∧ cs.all Char.isDigit = true ↔ IsDigits cs := by
    rw [List.all_eq_true, IsDigits]
  unfold Decimal.readNat?
  rw [ofDigitChars_eq]
  by_cases h : IsDigits cs
  · rw [if_pos (hall.mpr h), Option.some.injEq]
    exact ⟨fun hn => ⟨h, hn⟩, fun hn => hn.2⟩
  · rw [if_neg fun hcs => h (hall.mp hcs)]
    exact ⟨nofun, fun hn => absurd hn.1 h⟩

theorem readInt?_eq_some_iff {cs : List Char} {n : Int} : Decimal.readInt? cs = some n ↔ Numeral cs n := by
  constructor
  · intro h
    unfold Decimal.readInt? at h
    split at h
    · obtain ⟨m, hm, rfl⟩ := Option.map_eq_some_iff.mp h
      obtain ⟨hdigits, rfl⟩ := readNat?_eq_some_iff.mp hm
      exact .minus hdigits
    · obtain ⟨m, hm, rfl⟩ := Option.map_eq_some_iff.mp h
      obtain ⟨hdigits, rfl⟩ := readNat?_eq_some_iff.mp hm
      exact .plus hdigits
    · obtain ⟨m, hm, rfl⟩ := Option.map_eq_some_iff.mp h
      obtain ⟨hdigits, rfl⟩ := readNat?_eq_some_iff.mp hm
      exact .plain hdigits
  · intro h
    cases h with
    | plain hdigits =>
      have hread := readNat?_eq_some_iff.mpr ⟨hdigits, rfl⟩
      unfold Decimal.readInt?
      -- digits do not begin with a sign
      split
      · exact absurd (hdigits.2 '-' (by simp)) (by decide)
      · exact absurd (hdigits.2 '+' (by simp)) (by decide)
      · rw [hread, Option.map_some]
    | plus hdigits => rw [Decimal.readInt?, readNat?_eq_some_iff.mpr ⟨hdigits, rfl⟩, Option.map_some]
    | minus hdigits => rw [Decimal.readInt?, readNat?_eq_some_iff.mpr ⟨hdigits, rfl⟩, Option.map_some]

theorem readInt32?_eq_some_iff {word : String} {i : Int32} :
    Decimal.readInt32? word = some i ↔ IsInteger word i := by
  have hlo : Int32.minValue.toInt = -2147483648 := by decide
  have hhi : Int32.maxValue.toInt = 2147483647 := by decide
  unfold Decimal.readInt32? IsInteger
  rw [hlo, hhi]
  constructor
  · intro h
    split at h
    next n hn =>
      split at h
      next hrange =>
        exact ⟨n, readInt?_eq_some_iff.mp hn, hrange.1, hrange.2, (Option.some.inj h).symm⟩
      · cases h
    · cases h
  · rintro ⟨n, hn, hmin, hmax, rfl⟩
    rw [readInt?_eq_some_iff.mpr hn]
    exact if_pos ⟨hmin, hmax⟩

/-! ## Arguments -/

/-- What a word stands for in a slot. -/
def Slot.Denotes : (slot : Slot) → String → slot.Value → Prop
  | .int, word, i => IsInteger word i
  | .color, word, pen => Spells word (Pen.name pen)
  | .toggle, word, on => Spells word (Toggle.name on)

theorem Slot.read?_eq_some_iff {slot : Slot} {word : String} {value : slot.Value} :
    slot.read? word = some value ↔ slot.Denotes word value := by
  cases slot with
  | int => exact readInt32?_eq_some_iff
  | color => exact Pen.ofName?_iff
  | toggle => exact Toggle.ofName?_iff

/-- A value for each slot, from the word that is in its place. -/
def Args.Denoted : {slots : List Slot} → List String → Args slots → Prop
  | [], _, () => True
  | _ :: _, [], _ => False
  | slot :: _, word :: words, (value, values) => slot.Denotes word value ∧ Args.Denoted words values

/-- The first slot has the first word. -/
theorem Args.Denoted.exists_cons {slot : Slot} {slots : List Slot} {words : List String}
    {values : Args (slot :: slots)} (h : values.Denoted words) :
    ∃ word rest, words = word :: rest ∧ slot.Denotes word values.1 ∧ Args.Denoted rest values.2 := by
  cases words with
  | nil => cases h
  | cons word rest => exact ⟨word, rest, rfl, h⟩

theorem Args.Denoted.length_le {slots : List Slot} {words : List String} {values : Args slots}
    (h : values.Denoted words) : slots.length ≤ words.length := by
  induction slots generalizing words with
  | nil => exact Nat.zero_le _
  | cons slot slots ih =>
    obtain ⟨word, rest, rfl, -, hrest⟩ := h.exists_cons
    exact Nat.succ_le_succ (ih hrest)

/-- Words behind those for the slots make no difference. -/
theorem Args.denoted_take {slots : List Slot} {words : List String} {values : Args slots} :
    values.Denoted (words.take slots.length) ↔ values.Denoted words := by
  induction slots generalizing words with
  | nil => exact Iff.rfl
  | cons slot slots ih =>
    cases words with
    | nil => exact Iff.rfl
    | cons word words => exact and_congr_right fun _ => ih

theorem readArgs_eq_ok_iff {keyword : Keyword} {slots : List Slot} {position : Nat} {words : List Token}
    {h : slots.length ≤ words.length} {values : Args slots} :
    readArgs keyword slots position words h = .ok values ↔ values.Denoted (words.map Token.text) := by
  induction slots generalizing position words with
  | nil => exact ⟨fun _ => trivial, fun _ => rfl⟩
  | cons slot slots ih =>
    cases words with
    | nil => cases h
    | cons word words =>
      obtain ⟨value, values⟩ := values
      show _ ↔ slot.Denotes word.text value ∧ Args.Denoted (words.map Token.text) values
      rw [← Slot.read?_eq_some_iff]
      cases hread : slot.read? word.text with
      | none =>
        rw [readArgs_of_read?_eq_none keyword position hread]
        exact ⟨nofun, fun hno => absurd hno.1 nofun⟩
      | some value' =>
        rw [readArgs_of_read?_eq_some keyword position hread]
        constructor
        · intro hargs
          obtain ⟨values', hrest, heq⟩ := map_eq_ok_iff.mp hargs
          obtain ⟨rfl, rfl⟩ := Prod.mk.inj heq
          exact ⟨rfl, ih.mp hrest⟩
        · rintro ⟨⟨rfl⟩, hrest⟩
          exact map_eq_ok_iff.mpr ⟨values, ih.mpr hrest, rfl⟩

/-! ## Lines -/

namespace Command

/-- The words of a line and the command that they stand for. -/
inductive Denotes : List String → Command → Prop
  | position {head x y : String} {more : List String} {p : Point} :
      Spells head "position" → IsInteger x p.x → IsInteger y p.y →
      Denotes (head :: x :: y :: more) (.position p)
  | pen {head word : String} {more : List String} {color : Pen} :
      Spells head "pen" → Spells word color.name → Denotes (head :: word :: more) (.pen color)
  | draw {head x y : String} {more : List String} {p : Point} :
      Spells head "draw" → IsInteger x p.x → IsInteger y p.y →
      Denotes (head :: x :: y :: more) (.draw p)
  | clear {head : String} : Spells head "clear" → Denotes [head] .clear
  | reset {head : String} : Spells head "reset" → Denotes [head] .reset
  | rectangle {head width height : String} {more : List String} {size : Size} :
      Spells head "rectangle" → IsInteger width size.width → IsInteger height size.height →
      Denotes (head :: width :: height :: more) (.rectangle size)
  | circle {head word : String} {more : List String} {radius : Int32} :
      Spells head "circle" → IsInteger word radius → Denotes (head :: word :: more) (.circle radius)
  | triangle {head x₁ y₁ x₂ y₂ x₃ y₃ : String} {more : List String} {a b c : Point} :
      Spells head "triangle" → IsInteger x₁ a.x → IsInteger y₁ a.y → IsInteger x₂ b.x →
      IsInteger y₂ b.y → IsInteger x₃ c.x → IsInteger y₃ c.y →
      Denotes (head :: x₁ :: y₁ :: x₂ :: y₂ :: x₃ :: y₃ :: more) (.triangle a b c)
  | fill {head word : String} {more : List String} {on : Bool} :
      Spells head "fill" → Spells word (if on then "on" else "off") →
      Denotes (head :: word :: more) (.fill on)

/-- The same by the table of slots. -/
theorem denotes_iff {words : List String} {command : Command} :
    Denotes words command ↔ ∃ head args, words = head :: args ∧ Spells head command.keyword.name ∧
      (command.keyword.slots = [] → args = []) ∧ command.args.Denoted args := by
  constructor
  · intro h
    cases h with
    | position hhead hx hy => exact ⟨_, _, rfl, hhead, nofun, hx, hy, trivial⟩
    | pen hhead hcolor => exact ⟨_, _, rfl, hhead, nofun, hcolor, trivial⟩
    | draw hhead hx hy => exact ⟨_, _, rfl, hhead, nofun, hx, hy, trivial⟩
    | clear hhead => exact ⟨_, _, rfl, hhead, fun _ => rfl, trivial⟩
    | reset hhead => exact ⟨_, _, rfl, hhead, fun _ => rfl, trivial⟩
    | rectangle hhead hwidth hheight => exact ⟨_, _, rfl, hhead, nofun, hwidth, hheight, trivial⟩
    | circle hhead hradius => exact ⟨_, _, rfl, hhead, nofun, hradius, trivial⟩
    | triangle hhead h₁ h₂ h₃ h₄ h₅ h₆ =>
      exact ⟨_, _, rfl, hhead, nofun, h₁, h₂, h₃, h₄, h₅, h₆, trivial⟩
    | fill hhead hon => exact ⟨_, _, rfl, hhead, nofun, hon, trivial⟩
  · rintro ⟨head, args, rfl, hhead, hnone, hargs⟩
    cases command with
    | position p =>
      obtain ⟨x, _, rfl, hx, hargs⟩ := hargs.exists_cons
      obtain ⟨y, more, rfl, hy, -⟩ := hargs.exists_cons
      exact .position hhead hx hy
    | pen color =>
      obtain ⟨word, more, rfl, hcolor, -⟩ := hargs.exists_cons
      exact .pen hhead hcolor
    | draw p =>
      obtain ⟨x, _, rfl, hx, hargs⟩ := hargs.exists_cons
      obtain ⟨y, more, rfl, hy, -⟩ := hargs.exists_cons
      exact .draw hhead hx hy
    | clear =>
      obtain rfl := hnone rfl
      exact .clear hhead
    | reset =>
      obtain rfl := hnone rfl
      exact .reset hhead
    | rectangle size =>
      obtain ⟨width, _, rfl, hwidth, hargs⟩ := hargs.exists_cons
      obtain ⟨height, more, rfl, hheight, -⟩ := hargs.exists_cons
      exact .rectangle hhead hwidth hheight
    | circle radius =>
      obtain ⟨word, more, rfl, hradius, -⟩ := hargs.exists_cons
      exact .circle hhead hradius
    | triangle a b c =>
      obtain ⟨x₁, _, rfl, h₁, hargs⟩ := hargs.exists_cons
      obtain ⟨y₁, _, rfl, h₂, hargs⟩ := hargs.exists_cons
      obtain ⟨x₂, _, rfl, h₃, hargs⟩ := hargs.exists_cons
      obtain ⟨y₂, _, rfl, h₄, hargs⟩ := hargs.exists_cons
      obtain ⟨x₃, _, rfl, h₅, hargs⟩ := hargs.exists_cons
      obtain ⟨y₃, more, rfl, h₆, -⟩ := hargs.exists_cons
      exact .triangle hhead h₁ h₂ h₃ h₄ h₅ h₆
    | fill on =>
      obtain ⟨word, more, rfl, hon, -⟩ := hargs.exists_cons
      exact .fill hhead hon

section Lines

variable {line : String} {command : Command}

theorem denoted_args_ofArgs {k : Keyword} {values : Args k.slots} {words : List String} :
    (ofArgs k values).args.Denoted words ↔ values.Denoted words := by
  cases k <;> rfl

/-- A line reads as the commands that its words denote. -/
theorem parse_eq_ok_iff :
    parse line = .ok command ↔ Denotes ((tokens line).map Token.text) command := by
  rw [denotes_iff]
  constructor
  · intro h
    cases htokens : tokens line with
    | nil =>
      rw [parse_of_tokens_eq_nil htokens] at h
      cases h
    | cons head words =>
      rw [parse_of_tokens htokens] at h
      obtain ⟨-, hw⟩ | ⟨k, hk, ⟨-, hw⟩ | ⟨extra, -, hw⟩ | ⟨hle, hnone, hw⟩⟩ := ofWords_cases head words
      · exact absurd h (by simp [hw])
      · exact absurd h (by simp [hw])
      · exact absurd h (by simp [hw])
      · rw [hw] at h
        obtain ⟨values, hargs, rfl⟩ := map_eq_ok_iff.mp h
        refine ⟨head.text, words.map Token.text, rfl, ?_, ?_, ?_⟩
        · rw [keyword_ofArgs]
          exact Keyword.ofName?_iff.mp hk
        · rw [keyword_ofArgs]
          intro hslots
          rw [unexpected?_eq_none_iff.mp hnone hslots, List.map_nil]
        · exact denoted_args_ofArgs.mpr (readArgs_eq_ok_iff.mp hargs)
  · rintro ⟨name, args, hwords, hname, hnone, hargs⟩
    obtain ⟨head, words, htokens, rfl, rfl⟩ := List.map_eq_cons_iff.mp hwords
    have hhead : Keyword.ofName? head.text = some command.keyword := Keyword.ofName?_iff.mpr hname
    have hle : command.keyword.arity ≤ words.length := by
      have := hargs.length_le
      rwa [List.length_map] at this
    have hextra : unexpected? command.keyword words = none := by
      refine unexpected?_eq_none_iff.mpr fun hslots => ?_
      exact List.map_eq_nil_iff.mp (hnone hslots)
    have hread : readArgs command.keyword command.keyword.slots 1 words hle = .ok command.args :=
      readArgs_eq_ok_iff.mpr hargs
    rw [parse_of_tokens htokens, ofWords_eq_map hhead hle hextra, hread]
    exact congrArg Except.ok command.ofArgs_args

/-- Where there are slots, only the keyword and the words for them count. -/
theorem Denotes.congr {words words' : List String} (h : Denotes words command)
    (hslots : command.keyword.slots ≠ [])
    (hwords : words.take (1 + command.keyword.arity) = words'.take (1 + command.keyword.arity)) :
    Denotes words' command := by
  obtain ⟨head, args, rfl, hhead, -, hargs⟩ := denotes_iff.mp h
  rw [Nat.add_comm, List.take_succ_cons] at hwords
  cases words' with
  | nil => cases hwords
  | cons head' args' =>
    rw [List.take_succ_cons] at hwords
    obtain ⟨rfl, hrest⟩ := List.cons_eq_cons.mp hwords
    refine denotes_iff.mpr ⟨head, args', rfl, hhead, fun hno => absurd hno hslots, ?_⟩
    have hfront := Args.denoted_take.mpr hargs
    rw [show command.keyword.slots.length = command.keyword.arity from rfl, hrest] at hfront
    exact Args.denoted_take.mp hfront

/-- **The language of commands.** The tokens of a line are its longest runs of unblank characters. The line
reads as a command just if these words denote it, and if the command has arguments, the words behind them
make no difference. -/
theorem command_language (line : String) :
    Spaced 0 line.toList (tokens line) ∧
    (∀ command, parse line = .ok command ↔ Denotes ((tokens line).map Token.text) command) ∧
    ∀ command line', parse line = .ok command → command.keyword.slots ≠ [] →
      ((tokens line).map Token.text).take (1 + command.keyword.arity) =
        ((tokens line').map Token.text).take (1 + command.keyword.arity) →
      parse line' = .ok command := by
  refine ⟨spaced_tokensAt 0 line.toList, fun command => parse_eq_ok_iff, ?_⟩
  intro command line' h hslots hwords
  exact parse_eq_ok_iff.mpr ((parse_eq_ok_iff.mp h).congr hslots hwords)

end Lines

end Command

end PenPlot
