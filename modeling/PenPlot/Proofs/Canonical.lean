import PenPlot.Proofs.Strictness

/-!
# The canonical form of a command

A command is written as its keyword and the words of its arguments, each behind one space. Such a line is
well shaped (`wellShaped_text`), its tokens are the words that were written (`tokens_text`), and each of these
reads back as the value that it was written for (`readArgs_words`). So the canonical form of a command reads
as the command (`parse_text`), and the commands tell the canonical forms apart (`text_round_trip`).
-/

namespace PenPlot

open Text LineShape

/-! ## The words of the arguments -/

/-- The words that an argument list is written with. -/
def Args.words : {slots : List Slot} → Args slots → List String
  | [], () => []
  | slot :: _, (value, values) => slot.write value :: Args.words values

section Args

variable {slots : List Slot}

@[simp] theorem Args.length_words (values : Args slots) : values.words.length = slots.length := by
  induction slots with
  | nil => rfl
  | cons slot slots ih =>
    obtain ⟨value, values⟩ := values
    exact congrArg (· + 1) (ih values)

/-- What is written for an argument is a word of the grammar. -/
theorem Args.isWord_of_mem_words {values : Args slots} {word : String} (h : word ∈ values.words) :
    IsWord word.toList := by
  induction slots with
  | nil => cases h
  | cons slot slots ih =>
    obtain ⟨value, values⟩ := values
    rcases List.mem_cons.mp h with rfl | h
    · exact Slot.isWord_of_read? (slot.read?_write value)
    · exact ih h

/-- The groups of a line that the words stand in. -/
def groupsOf (words : List String) : List (List Char × List Char) :=
  words.map fun word => ([' '], word.toList)

theorem Args.toList_text (values : Args slots) :
    values.text.toList = (groupsOf values.words).flatMap groupText := by
  induction slots with
  | nil => rfl
  | cons slot slots ih =>
    obtain ⟨value, values⟩ := values
    show (" " ++ slot.write value ++ values.text).toList =
      [' '] ++ (slot.write value).toList ++ (groupsOf values.words).flatMap groupText
    rw [String.toList_append, String.toList_append, ih values]
    rfl

theorem Args.areGroups_words (values : Args slots) : AreGroups (groupsOf values.words) := by
  intro group hgroup
  obtain ⟨word, hword, rfl⟩ := List.mem_map.mp hgroup
  exact ⟨⟨by simp, by simp [isGap]⟩, Args.isWord_of_mem_words hword⟩

/-- Values are read back from the words that were written for them. -/
theorem readArgs_words (keyword : Keyword) (values : Args slots) {words : List Token}
    (hwords : words.map Token.text = values.words) (position : Nat)
    (h : slots.length ≤ words.length) : readArgs keyword slots position words h = .ok values := by
  induction slots generalizing words position with
  | nil => rfl
  | cons slot slots ih =>
    obtain ⟨value, values⟩ := values
    obtain ⟨word, words, rfl, hword, hrest⟩ := List.map_eq_cons_iff.mp hwords
    have hread : slot.read? word.text = some value := by
      rw [hword]
      exact slot.read?_write value
    rw [readArgs_of_read?_eq_some keyword position hread h, ih values hrest]
    rfl

end Args

/-! ## The line -/

namespace Command

theorem toList_text (command : Command) :
    command.text.toList =
      command.keyword.name.toList ++ (groupsOf command.args.words).flatMap groupText := by
  rw [text, String.toList_append, Args.toList_text]

theorem wellShaped_text (command : Command) : WellShaped command.text.toList :=
  ⟨command.keyword, _, _, command.toList_text, command.keyword.fold_name, command.args.areGroups_words⟩

/-- The tokens of the canonical form are the words that it was written with. -/
theorem tokens_text (command : Command) :
    ∃ head words, tokens command.text = head :: words ∧ head.text = command.keyword.name ∧
      words.map Token.text = command.args.words := by
  have hare := command.args.areGroups_words
  refine ⟨_, _, tokens_wellShaped command.toList_text command.keyword.fold_name hare, ?_, ?_⟩
  · exact String.ofList_toList
  · have hlists := map_text_tokensAt_groups hare (byteLength command.keyword.name.toList)
    have hstrings := congrArg (List.map String.ofList) hlists
    simpa [groupsOf, Function.comp_def] using hstrings

theorem parse_text (command : Command) : parse command.text = .ok command := by
  obtain ⟨head, words, htokens, hhead, hwords⟩ := command.tokens_text
  have hname : Keyword.ofName? head.text = some command.keyword := by
    rw [hhead, Keyword.ofName?_name]
  have hlength : words.length = command.keyword.arity := by
    rw [← List.length_map Token.text, hwords, Args.length_words]
    rfl
  have hextra : unexpected? command.keyword words = none := by
    refine unexpected?_eq_none_iff.mpr fun hslots => ?_
    rw [← List.length_eq_zero_iff, hlength, Keyword.arity, hslots, List.length_nil]
  have hargs := readArgs_words command.keyword command.args hwords 1 hlength.ge
  rw [parse_of_tokens htokens, ofWords_eq_map hname hlength.ge hextra, hargs]
  exact congrArg Except.ok command.ofArgs_args

theorem checkLine_text (command : Command) (number : Nat) :
    checkLine number command.text = .ok command :=
  checkLine_of_wellShaped number command.wellShaped_text command.parse_text

theorem text_injective {command command' : Command} (h : command.text = command'.text) :
    command = command' := by
  have hparse := command.parse_text
  rw [h, parse_text, Except.ok.injEq] at hparse
  exact hparse.symm

/-- **Canonical forms.** The text of a command reads and checks as the command. So the text of what a line
reads as stands for the same command, and two lines have the same canonical form just when they read the
same. -/
theorem text_round_trip :
    (∀ (command : Command) (number : Nat),
      parse command.text = .ok command ∧ checkLine number command.text = .ok command) ∧
    (∀ (line : String) (command : Command), parse line = .ok command →
      parse command.text = parse line ∧ ∀ number, checkLine number command.text = .ok command) ∧
    ∀ (line line' : String) (command command' : Command), parse line = .ok command →
      parse line' = .ok command' → (command.text = command'.text ↔ parse line = parse line') := by
  refine ⟨?_, ?_, ?_⟩
  · intro command number
    exact ⟨command.parse_text, command.checkLine_text number⟩
  · intro line command h
    exact ⟨command.parse_text.trans h.symm, command.checkLine_text⟩
  · intro line line' command command' h h'
    rw [h, h', Except.ok.injEq]
    exact ⟨text_injective, congrArg text⟩

end Command

end PenPlot
