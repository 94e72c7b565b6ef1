import PenPlot.Proofs.LineParts
import PenPlot.Proofs.Results

/-!
# The grammar of lines

A parsing expression matches a text from a cursor on: of two alternatives the second is tried only where
the first fails, a repetition goes on as long as it can, and nothing is taken back later. Named rules
leave a piece where they match; where they fail, the byte is remembered, and the furthest one is the
`reach` of the attempt.

`Parses` says what an expression makes of a text, and `Parses.unique` that this is at most one thing. The
four rules of a line are written as expressions in `Rule.expr`, and `answers_iff` says that `Rule.parse`
gives just the answers of this grammar, the position of a failure included.
-/

namespace PenPlot.LineShape

open Text

/-! ## Parsing expressions -/

inductive Expr
  /-- One character of a class. -/
  | char (isIn : Char → Bool)
  /-- A text in any case of its letters. -/
  | text (letters : List Char)
  | start
  | stop
  | seq (first second : Expr)
  | choice (first second : Expr)
  | optional (e : Expr)
  /-- As many times as possible, also none at all. -/
  | many (e : Expr)
  | rule (part : Part) (e : Expr)

namespace Expr

/-- As many times as possible, but at least once. -/
def many1 (e : Expr) : Expr :=
  .seq e (.many e)

/-- The first of several alternatives that matches. -/
def anyOf (e : Expr) : List Expr → Expr
  | [] => e
  | f :: fs => .choice e (anyOf f fs)

end Expr

/-- The text from byte `pos` on. -/
structure Cursor where
  pos : Nat
  rest : List Char

/-- From the cursor on, the expression leaves pieces and a cursor behind them, or fails; the number is the
furthest byte at which a named rule has failed on the way, and zero if none has. -/
inductive Parses : Expr → Cursor → Option (List Piece × Cursor) → Nat → Prop
  | char {isIn : Char → Bool} {pos : Nat} {c : Char} {cs : List Char} : isIn c = true →
      Parses (.char isIn) ⟨pos, c :: cs⟩ (some ([], ⟨pos + c.utf8Size, cs⟩)) 0
  | char_fail {isIn : Char → Bool} {pos : Nat} {cs : List Char} :
      (∀ c ∈ cs.head?, isIn c = false) → Parses (.char isIn) ⟨pos, cs⟩ none 0
  | text {letters : List Char} {pos : Nat} {cs front rest : List Char} :
      cs = front ++ rest → fold front = fold letters →
      Parses (.text letters) ⟨pos, cs⟩ (some ([], ⟨pos + byteLength front, rest⟩)) 0
  | text_fail {letters : List Char} {pos : Nat} {cs : List Char} :
      (∀ front rest, cs = front ++ rest → fold front ≠ fold letters) →
      Parses (.text letters) ⟨pos, cs⟩ none 0
  | start {cs : List Char} : Parses .start ⟨0, cs⟩ (some ([], ⟨0, cs⟩)) 0
  | start_fail {pos : Nat} {cs : List Char} : pos ≠ 0 → Parses .start ⟨pos, cs⟩ none 0
  | stop {pos : Nat} : Parses .stop ⟨pos, []⟩ (some ([], ⟨pos, []⟩)) 0
  | stop_fail {pos : Nat} {cs : List Char} : cs ≠ [] → Parses .stop ⟨pos, cs⟩ none 0
  | seq {a b : Expr} {cur mid last : Cursor} {ps qs : List Piece} {r r' : Nat} :
      Parses a cur (some (ps, mid)) r → Parses b mid (some (qs, last)) r' →
      Parses (.seq a b) cur (some (ps ++ qs, last)) (max r r')
  | seq_fail_first {a b : Expr} {cur : Cursor} {r : Nat} :
      Parses a cur none r → Parses (.seq a b) cur none r
  | seq_fail_second {a b : Expr} {cur mid : Cursor} {ps : List Piece} {r r' : Nat} :
      Parses a cur (some (ps, mid)) r → Parses b mid none r' →
      Parses (.seq a b) cur none (max r r')
  | choice_first {a b : Expr} {cur : Cursor} {m : List Piece × Cursor} {r : Nat} :
      Parses a cur (some m) r → Parses (.choice a b) cur (some m) r
  | choice_second {a b : Expr} {cur : Cursor} {o : Option (List Piece × Cursor)} {r r' : Nat} :
      Parses a cur none r → Parses b cur o r' → Parses (.choice a b) cur o (max r r')
  | optional_match {e : Expr} {cur : Cursor} {m : List Piece × Cursor} {r : Nat} :
      Parses e cur (some m) r → Parses (.optional e) cur (some m) r
  | optional_none {e : Expr} {cur : Cursor} {r : Nat} :
      Parses e cur none r → Parses (.optional e) cur (some ([], cur)) r
  | many_step {e : Expr} {cur mid last : Cursor} {ps qs : List Piece} {r r' : Nat} :
      Parses e cur (some (ps, mid)) r → Parses (.many e) mid (some (qs, last)) r' →
      Parses (.many e) cur (some (ps ++ qs, last)) (max r r')
  | many_stop {e : Expr} {cur : Cursor} {r : Nat} :
      Parses e cur none r → Parses (.many e) cur (some ([], cur)) r
  | rule {part : Part} {e : Expr} {cur last : Cursor} {ps : List Piece} {r : Nat} :
      Parses e cur (some (ps, last)) r →
      Parses (.rule part e) cur (some (⟨part, ⟨cur.pos, last.pos⟩⟩ :: ps, last)) r
  | rule_fail {part : Part} {e : Expr} {cur : Cursor} {r : Nat} :
      Parses e cur none r → Parses (.rule part e) cur none (max r cur.pos)

theorem Parses.unique {e : Expr} {cur : Cursor} {o o' : Option (List Piece × Cursor)} {r r' : Nat}
    (h : Parses e cur o r) (h' : Parses e cur o' r') : o = o' ∧ r = r' := by
  induction h generalizing o' r' with
  | char hc =>
    cases h' with
    | char => exact ⟨rfl, rfl⟩
    | char_fail hno => simp [hno _ rfl] at hc
  | char_fail hno =>
    cases h' with
    | char hc => simp [hno _ rfl] at hc
    | char_fail => exact ⟨rfl, rfl⟩
  | text hcs hf =>
    cases h' with
    | text hcs' hf' =>
      rw [hcs] at hcs'
      have hlen := congrArg List.length (hf.trans hf'.symm)
      simp only [fold, List.length_map] at hlen
      obtain ⟨rfl, rfl⟩ := List.append_inj hcs' hlen
      exact ⟨rfl, rfl⟩
    | text_fail hno => exact absurd hf (hno _ _ hcs)
  | text_fail hno =>
    cases h' with
    | text hcs hf => exact absurd hf (hno _ _ hcs)
    | text_fail => exact ⟨rfl, rfl⟩
  | start =>
    cases h' with
    | start => exact ⟨rfl, rfl⟩
    | start_fail h0 => exact absurd rfl h0
  | start_fail h0 =>
    cases h' with
    | start => exact absurd rfl h0
    | start_fail => exact ⟨rfl, rfl⟩
  | stop =>
    cases h' with
    | stop => exact ⟨rfl, rfl⟩
    | stop_fail hne => exact absurd rfl hne
  | stop_fail hne =>
    cases h' with
    | stop => exact absurd rfl hne
    | stop_fail => exact ⟨rfl, rfl⟩
  | seq _ _ iha ihb =>
    cases h' with
    | seq ha hb =>
      obtain ⟨⟨⟩, rfl⟩ := iha ha
      obtain ⟨⟨⟩, rfl⟩ := ihb hb
      exact ⟨rfl, rfl⟩
    | seq_fail_first ha => cases (iha ha).1
    | seq_fail_second ha hb =>
      obtain ⟨⟨⟩, rfl⟩ := iha ha
      cases (ihb hb).1
  | seq_fail_first _ iha =>
    cases h' with
    | seq ha => cases (iha ha).1
    | seq_fail_first ha =>
      obtain ⟨-, rfl⟩ := iha ha
      exact ⟨rfl, rfl⟩
    | seq_fail_second ha => cases (iha ha).1
  | seq_fail_second _ _ iha ihb =>
    cases h' with
    | seq ha hb =>
      obtain ⟨⟨⟩, rfl⟩ := iha ha
      cases (ihb hb).1
    | seq_fail_first ha => cases (iha ha).1
    | seq_fail_second ha hb =>
      obtain ⟨⟨⟩, rfl⟩ := iha ha
      obtain ⟨-, rfl⟩ := ihb hb
      exact ⟨rfl, rfl⟩
  | choice_first _ iha =>
    cases h' with
    | choice_first ha => exact iha ha
    | choice_second ha => cases (iha ha).1
  | choice_second _ _ iha ihb =>
    cases h' with
    | choice_first ha => cases (iha ha).1
    | choice_second ha hb =>
      obtain ⟨-, rfl⟩ := iha ha
      obtain ⟨rfl, rfl⟩ := ihb hb
      exact ⟨rfl, rfl⟩
  | optional_match _ ih =>
    cases h' with
    | optional_match he => exact ih he
    | optional_none he => cases (ih he).1
  | optional_none _ ih =>
    cases h' with
    | optional_match he => cases (ih he).1
    | optional_none he => exact ⟨rfl, (ih he).2⟩
  | many_step _ _ ihe ihm =>
    cases h' with
    | many_step he hm =>
      obtain ⟨⟨⟩, rfl⟩ := ihe he
      obtain ⟨⟨⟩, rfl⟩ := ihm hm
      exact ⟨rfl, rfl⟩
    | many_stop he => cases (ihe he).1
  | many_stop _ ihe =>
    cases h' with
    | many_step he => cases (ihe he).1
    | many_stop he => exact ⟨rfl, (ihe he).2⟩
  | rule _ ih =>
    cases h' with
    | rule he =>
      obtain ⟨⟨⟩, rfl⟩ := ih he
      exact ⟨rfl, rfl⟩
    | rule_fail he => cases (ih he).1
  | rule_fail _ ih =>
    cases h' with
    | rule he => cases (ih he).1
    | rule_fail he =>
      obtain ⟨-, rfl⟩ := ih he
      exact ⟨rfl, rfl⟩

/-! ## The rules of a line -/

namespace Expr

/-- Spaces and tabs. -/
def gap : Expr :=
  many1 (.choice (.char (· == ' ')) (.char (· == '\t')))

/-- The names behind the first one, in the order in which they are tried. -/
def otherNames : List (List Char) :=
  ["pen", "draw", "clear", "reset", "rectangle", "circle", "triangle", "fill"].map String.toList

def keyword : Expr :=
  .rule .keyword (anyOf (.text "position".toList) (otherNames.map .text))

def word : Expr :=
  .rule .word (.seq (.optional (.choice (.char (· == '-')) (.char (· == '+'))))
    (many1 (.choice (.char Char.isAlphanum) (.char (· == '_')))))

/-- As many groups of a gap and a word as there are. -/
def groups : Expr :=
  .many (.seq gap word)

def finish : Expr :=
  .rule .finish .stop

def line : Expr :=
  .rule .line (.seq .start (.seq keyword (.seq groups finish)))

end Expr

def Rule.expr : Rule → Expr
  | .line => .line
  | .keyword => .keyword
  | .word => .word
  | .gap => .gap

/-- The answer of a grammar to a text: the pieces of a match, or the reach of a failure. -/
inductive Answers (e : Expr) (text : String) : Except Nat (List Piece) → Prop
  | ok {ps : List Piece} {last : Cursor} {r : Nat} :
      Parses e ⟨0, text.toList⟩ (some (ps, last)) r → Answers e text (.ok ps)
  | error {r : Nat} : Parses e ⟨0, text.toList⟩ none r → Answers e text (.error r)

theorem Answers.unique {e : Expr} {text : String} {a a' : Except Nat (List Piece)}
    (h : Answers e text a) (h' : Answers e text a') : a = a' := by
  cases h with
  | ok hp =>
    cases h' with
    | ok hp' =>
      obtain ⟨⟨⟩, -⟩ := hp.unique hp'
      rfl
    | error hp' => cases (hp.unique hp').1
  | error hp =>
    cases h' with
    | ok hp' => cases (hp.unique hp').1
    | error hp' => rw [(hp.unique hp').2]

/-! ## Classes of characters -/

/-- The expression matches one character of a class, whatever follows. -/
structure IsClass (e : Expr) (p : Char → Bool) : Prop where
  hit {pos : Nat} {c : Char} {cs : List Char} :
    p c = true → Parses e ⟨pos, c :: cs⟩ (some ([], ⟨pos + c.utf8Size, cs⟩)) 0
  miss {pos : Nat} {cs : List Char} :
    (∀ c ∈ cs.head?, p c = false) → Parses e ⟨pos, cs⟩ none 0

theorem isClass_char (p : Char → Bool) : IsClass (.char p) p :=
  ⟨.char, .char_fail⟩

namespace IsClass

variable {a b e : Expr} {p q : Char → Bool}

theorem choice (ha : IsClass a p) (hb : IsClass b q) :
    IsClass (.choice a b) fun c => p c || q c where
  hit {pos c cs} h := by
    cases hp : p c with
    | true => exact .choice_first (ha.hit hp)
    | false =>
      have hq : q c = true := by simpa [hp] using h
      exact .choice_second (ha.miss (by simpa using hp)) (hb.hit hq)
  miss {pos cs} h := by
    simp only [Bool.or_eq_false_iff] at h
    exact .choice_second (ha.miss fun c hc => (h c hc).1) (hb.miss fun c hc => (h c hc).2)

theorem many (he : IsClass e p) {front rest : List Char} (hfront : ∀ c ∈ front, p c = true)
    (hstop : ∀ c ∈ rest.head?, p c = false) (pos : Nat) :
    Parses (.many e) ⟨pos, front ++ rest⟩ (some ([], ⟨pos + byteLength front, rest⟩)) 0 := by
  induction front generalizing pos with
  | nil => exact .many_stop (he.miss hstop)
  | cons c front ih =>
    have hrest := ih (fun d hd => hfront d (by simp [hd])) (pos + c.utf8Size)
    rw [Nat.add_assoc] at hrest
    rw [byteLength_cons]
    exact .many_step (he.hit (hfront c (by simp))) hrest

theorem many1 (he : IsClass e p) {front rest : List Char} (hne : front ≠ [])
    (hfront : ∀ c ∈ front, p c = true) (hstop : ∀ c ∈ rest.head?, p c = false) (pos : Nat) :
    Parses e.many1 ⟨pos, front ++ rest⟩ (some ([], ⟨pos + byteLength front, rest⟩)) 0 := by
  obtain ⟨c, front, rfl⟩ := List.exists_cons_of_ne_nil hne
  have hfront' : ∀ d ∈ front, p d = true := fun d hd => hfront d (by simp [hd])
  have hrest := he.many hfront' hstop (pos + c.utf8Size)
  rw [Nat.add_assoc] at hrest
  rw [byteLength_cons]
  exact .seq (he.hit (hfront c (by simp))) hrest

theorem many1_fail (he : IsClass e p) {cs : List Char} (hstop : ∀ c ∈ cs.head?, p c = false)
    (pos : Nat) : Parses e.many1 ⟨pos, cs⟩ none 0 :=
  .seq_fail_first (he.miss hstop)

end IsClass

/-! ## Gaps and words -/

theorem isClass_gap : IsClass (.choice (.char (· == ' ')) (.char (· == '\t'))) isGap :=
  (isClass_char _).choice (isClass_char _)

theorem isClass_sign : IsClass (.choice (.char (· == '-')) (.char (· == '+'))) isSign := by
  have h : isSign = fun c => c == '-' || c == '+' := by
    funext c
    exact Bool.or_comm _ _
  rw [h]
  exact (isClass_char _).choice (isClass_char _)

theorem isClass_wordChar : IsClass (.choice (.char Char.isAlphanum) (.char (· == '_'))) isWordChar :=
  (isClass_char _).choice (isClass_char _)

theorem parses_gap {cs gap rest : List Char} (h : gap? cs = some (gap, rest)) (pos : Nat) :
    Parses .gap ⟨pos, cs⟩ (some ([], ⟨pos + byteLength gap, rest⟩)) 0 := by
  obtain ⟨rfl, ⟨hne, hgap⟩, hstop⟩ := gap?_eq_some_iff.mp h
  exact isClass_gap.many1 hne hgap hstop pos

theorem parses_gap_fail {cs : List Char} (h : gap? cs = none) (pos : Nat) :
    Parses .gap ⟨pos, cs⟩ none 0 :=
  isClass_gap.many1_fail (gap?_eq_none_iff.mp h) pos

theorem parses_sign (pos : Nat) (cs : List Char) :
    Parses (.optional (.choice (.char (· == '-')) (.char (· == '+')))) ⟨pos, cs⟩
      (some ([], ⟨pos + byteLength (sign cs), cs.drop (sign cs).length⟩)) 0 := by
  cases cs with
  | nil => exact .optional_none (isClass_sign.miss (by simp))
  | cons c cs =>
    by_cases h : isSign c = true
    · rw [sign_cons h]
      exact .optional_match (isClass_sign.hit h)
    · have hmiss : ∀ d ∈ (c :: cs).head?, isSign d = false := by simpa using h
      rw [sign_eq_nil hmiss]
      exact .optional_none (isClass_sign.miss hmiss)

theorem parses_word {cs word rest : List Char} (h : word? cs = some (word, rest)) (pos : Nat) :
    Parses .word ⟨pos, cs⟩
      (some ([⟨.word, ⟨pos, pos + byteLength word⟩⟩], ⟨pos + byteLength word, rest⟩)) 0 := by
  obtain ⟨body, rest', hcs, hbody, hstop⟩ := exists_stretch isWordChar (cs.drop (sign cs).length)
  rw [word?_of_drop hcs hbody hstop] at h
  split at h
  · cases h
  next hne =>
    simp only [Option.some.injEq, Prod.mk.injEq] at h
    obtain ⟨rfl, rfl⟩ := h
    have hsign := parses_sign pos cs
    rw [hcs] at hsign
    have hmany := isClass_wordChar.many1 hne hbody hstop (pos + byteLength (sign cs))
    rw [Nat.add_assoc, ← byteLength_append] at hmany
    exact .rule (.seq hsign hmany)

/-- A word that fails is charged to where it would have begun, in front of its sign. -/
theorem parses_word_fail {cs : List Char} (h : word? cs = none) (pos : Nat) :
    Parses .word ⟨pos, cs⟩ none pos := by
  have hbody := isClass_wordChar.many1_fail (word?_eq_none_iff.mp h) (pos + byteLength (sign cs))
  have hrule : Parses .word ⟨pos, cs⟩ none (max (max 0 0) pos) :=
    .rule_fail (.seq_fail_second (parses_sign pos cs) hbody)
  simpa using hrule

/-! ## Keywords -/

section Names

variable {cs : List Char} {letters : List Char} {more : List (List Char)}

theorem parses_anyOf {front rest chosen : List Char} (hmem : chosen ∈ letters :: more)
    (hcs : cs = front ++ rest) (hfront : fold front = fold chosen)
    (hother : ∀ l ∈ letters :: more, l ≠ chosen → ∀ f r, cs = f ++ r → fold f ≠ fold l) (pos : Nat) :
    Parses (.anyOf (.text letters) (more.map .text)) ⟨pos, cs⟩
      (some ([], ⟨pos + byteLength front, rest⟩)) 0 := by
  induction more generalizing letters with
  | nil =>
    obtain rfl : chosen = letters := by simpa using hmem
    exact .text hcs hfront
  | cons l more ih =>
    by_cases heq : letters = chosen
    · subst heq
      exact .choice_first (.text hcs hfront)
    · have hmem' : chosen ∈ l :: more := by
        rcases List.mem_cons.mp hmem with h | h
        · exact absurd h.symm heq
        · exact h
      have hrest := ih hmem' fun l' hl' => hother l' (List.mem_cons_of_mem _ hl')
      exact .choice_second (.text_fail (hother letters (by simp) heq)) hrest

theorem parses_anyOf_fail (h : ∀ l ∈ letters :: more, ∀ f r, cs = f ++ r → fold f ≠ fold l)
    (pos : Nat) : Parses (.anyOf (.text letters) (more.map .text)) ⟨pos, cs⟩ none 0 := by
  induction more generalizing letters with
  | nil => exact .text_fail (h letters (by simp))
  | cons l more ih =>
    have hrest := ih fun l' hl' => h l' (List.mem_cons_of_mem _ hl')
    exact .choice_second (.text_fail (h letters (by simp))) hrest

end Names

/-- The names in the grammar are those of the keywords. -/
theorem names_eq : "position".toList :: Expr.otherNames = Keyword.all.map fun k => k.name.toList :=
  rfl

theorem mem_names_iff {l : List Char} :
    l ∈ "position".toList :: Expr.otherNames ↔ ∃ k : Keyword, l = k.name.toList := by
  rw [names_eq, List.mem_map]
  constructor
  · rintro ⟨k, -, rfl⟩
    exact ⟨k, rfl⟩
  · rintro ⟨k, rfl⟩
    exact ⟨k, k.mem_all, rfl⟩

theorem parses_keyword {cs name rest : List Char} {k : Keyword}
    (h : keyword? cs = some (k, name, rest)) (pos : Nat) :
    Parses .keyword ⟨pos, cs⟩
      (some ([⟨.keyword, ⟨pos, pos + byteLength name⟩⟩], ⟨pos + byteLength name, rest⟩)) 0 := by
  obtain ⟨hcs, hk⟩ := keyword?_eq_some_iff.mp h
  have hname : fold name = fold k.name.toList := hk.trans k.fold_name.symm
  refine .rule (parses_anyOf (mem_names_iff.mpr ⟨k, rfl⟩) hcs hname ?_ pos)
  intro l hl hne f r hfr hf
  obtain ⟨k', rfl⟩ := mem_names_iff.mp hl
  obtain ⟨rfl, -⟩ := keyword_unique (hcs.symm.trans hfr) hk (hf.trans k'.fold_name)
  exact hne rfl

theorem parses_keyword_fail {cs : List Char} (h : keyword? cs = none) (pos : Nat) :
    Parses .keyword ⟨pos, cs⟩ none pos := by
  have hrule : Parses .keyword ⟨pos, cs⟩ none (max 0 pos) := by
    refine .rule_fail (parses_anyOf_fail ?_ pos)
    intro l hl f r hfr hf
    obtain ⟨k, rfl⟩ := mem_names_iff.mp hl
    exact keyword?_eq_none_iff.mp h k f r hfr (hf.trans k.fold_name)
  simpa using hrule

/-! ## Groups and lines -/

section Groups

variable {pos : Nat} {cs : List Char}

/-- Where nothing but groups follows, all of it is matched. -/
theorem parses_groups {words : List Span} (h : groupsAt pos cs = .ok words) :
    Parses .groups ⟨pos, cs⟩ (some (words.map (⟨.word, ·⟩), ⟨pos + byteLength cs, []⟩)) 0 := by
  induction pos, cs using groupsAt.induct generalizing words with
  | case1 pos =>
    obtain rfl : words = [] := by simpa using h.symm
    exact .many_stop (.seq_fail_first (parses_gap_fail rfl pos))
  | case2 pos cs hne hgap =>
    rw [groupsAt_of_gap?_eq_none hne hgap] at h
    exact absurd h (by simp)
  | case3 pos cs hne gap rest hgap hword =>
    rw [groupsAt_of_word?_eq_none hgap hword] at h
    exact absurd h (by simp)
  | case4 pos cs hne gap rest hgap word rest' hword start =>
    rename_i ih
    rw [groupsAt_of_word?_eq_some hgap hword] at h
    obtain ⟨words', hrest, rfl⟩ := map_eq_ok_iff.mp h
    have hgroup := Parses.seq (parses_gap hgap pos) (parses_word hword _)
    have hmany := Parses.many_step hgroup (ih hrest)
    obtain ⟨rfl, -⟩ := gap?_eq_some_iff.mp hgap
    obtain ⟨rfl, -⟩ := word?_eq_some_iff.mp hword
    simpa [Expr.groups, start, Nat.add_assoc] using hmany

/-- Elsewhere the groups end before the end of the text, and the reach of what comes next is the position that
`groupsAt` gives. -/
theorem parses_groups_of_error {p : Nat} (h : groupsAt pos cs = .error p) :
    ∃ ps last r, Parses .groups ⟨pos, cs⟩ (some (ps, last)) r ∧ last.rest ≠ [] ∧
      max r last.pos = p := by
  induction pos, cs using groupsAt.induct with
  | case1 pos => exact absurd h (by simp)
  | case2 pos cs hne hgap =>
    rw [groupsAt_of_gap?_eq_none hne hgap] at h
    obtain rfl : pos = p := by simpa using h
    exact ⟨[], ⟨pos, cs⟩, 0, .many_stop (.seq_fail_first (parses_gap_fail hgap pos)), hne, by simp⟩
  | case3 pos cs hne gap rest hgap hword =>
    -- the gap is given back, but the word that failed behind it is remembered
    rw [groupsAt_of_word?_eq_none hgap hword] at h
    obtain rfl : pos + byteLength gap = p := by simpa using h
    have hgroup := Parses.seq_fail_second (parses_gap hgap pos) (parses_word_fail hword _)
    exact ⟨[], ⟨pos, cs⟩, _, .many_stop hgroup, hne, by simp⟩
  | case4 pos cs hne gap rest hgap word rest' hword start =>
    rename_i ih
    rw [groupsAt_of_word?_eq_some hgap hword] at h
    obtain ⟨ps, last, r, hmany, hlast, hreach⟩ := ih (map_eq_error_iff.mp h)
    have hgroup := Parses.seq (parses_gap hgap pos) (parses_word hword _)
    have hmany' := Parses.many_step hgroup hmany
    exact ⟨_, last, r, by simpa [Expr.groups] using hmany', hlast, hreach⟩

end Groups

theorem answers_line (text : String) : Answers .line text (Rule.line.parse text) := by
  cases hkeyword : keyword? text.toList with
  | none =>
    rw [parse_line_of_keyword?_eq_none hkeyword]
    have hline : Parses .line ⟨0, text.toList⟩ none (max (max 0 0) 0) :=
      .rule_fail (.seq_fail_second .start (.seq_fail_first (parses_keyword_fail hkeyword 0)))
    exact .error hline
  | some found =>
    obtain ⟨k, name, rest⟩ := found
    have hname := parses_keyword hkeyword 0
    rw [Nat.zero_add] at hname
    cases hgroups : groupsAt (byteLength name) rest with
    | ok words =>
      rw [parse_line_of_groupsAt_ok hkeyword hgroups]
      have hsize : byteLength name + byteLength rest = text.utf8ByteSize := by
        rw [← byteLength_append, ← (keyword?_eq_some_iff.mp hkeyword).1, byteLength_toList]
      have hrest := parses_groups hgroups
      rw [hsize] at hrest
      have hfinish : Parses .finish ⟨text.utf8ByteSize, []⟩ _ 0 := .rule .stop
      have hline : Parses .line ⟨0, text.toList⟩ _ _ :=
        .rule (.seq .start (.seq hname (.seq hrest hfinish)))
      exact .ok hline
    | error p =>
      rw [parse_line_of_groupsAt_error hkeyword hgroups]
      obtain ⟨ps, last, r, hmany, hlast, hreach⟩ := parses_groups_of_error hgroups
      have hfinish : Parses .finish last none (max 0 last.pos) := .rule_fail (.stop_fail hlast)
      have hline : Parses .line ⟨0, text.toList⟩ none _ :=
        .rule_fail (.seq_fail_second .start (.seq_fail_second hname (.seq_fail_second hmany hfinish)))
      have hmax : max (max 0 (max 0 (max r (max 0 last.pos)))) 0 = p := by omega
      rw [hmax] at hline
      exact .error hline

theorem answers_parse (rule : Rule) (text : String) : Answers rule.expr text (rule.parse text) := by
  cases rule with
  | line => exact answers_line text
  | keyword =>
    rw [Rule.parse]
    cases h : keyword? text.toList with
    | none => exact .error (parses_keyword_fail h 0)
    | some found => simpa [Rule.expr] using Answers.ok (parses_keyword h 0)
  | word =>
    rw [Rule.parse]
    cases h : word? text.toList with
    | none => exact .error (parses_word_fail h 0)
    | some found => simpa [Rule.expr] using Answers.ok (parses_word h 0)
  | gap =>
    rw [Rule.parse]
    cases h : gap? text.toList with
    | none => exact .error (parses_gap_fail h 0)
    | some found => exact .ok (parses_gap h 0)

/-- The answers of the grammar are those of `Rule.parse`. -/
theorem answers_iff {rule : Rule} {text : String} {a : Except Nat (List Piece)} :
    Answers rule.expr text a ↔ a = rule.parse text :=
  ⟨fun h => h.unique (answers_parse rule text), fun h => h ▸ answers_parse rule text⟩

end PenPlot.LineShape
