import PenPlot.Proofs.Lines
import PenPlot.Proofs.Precision
import PenPlot.Svg.Canvas

/-!
# Numerals, colors and coordinates as text

Each of these texts tells what it was written for: integers (`Decimal.ofInt_injective`), halves of 53 bits
(`Half.text_injective`), colors (`Color.text_injective`), pixels (`Pixel.text_injective`) and words with single
spaces between them (`intercalate_space_injective`). A comma, a space or a bracket ends a numeral, since a
numeral has only digits and minus signs (`Decimal.notMem_ofInt`). None of them has a blank in it (`IsSolid`).
-/

namespace PenPlot

open Text

/-! ## Words -/

/-- A text that reads as one word: something without any blank. -/
def IsSolid (s : String) : Prop :=
  s ≠ "" ∧ ∀ c ∈ s.toList, isBlank c = false

instance (s : String) : Decidable (IsSolid s) :=
  @instDecidableAnd _ _ _ (List.decidableBAll (fun c => isBlank c = false) s.toList)

section Words

variable {s t : String}

theorem IsSolid.append (hs : IsSolid s) (ht : IsSolid t) : IsSolid (s ++ t) := by
  refine ⟨fun h => hs.1 (String.append_eq_empty_iff.mp h).1, ?_⟩
  rw [String.toList_append]
  exact List.forall_mem_append.mpr ⟨hs.2, ht.2⟩

theorem IsSolid.space_notMem (h : IsSolid s) : ' ' ∉ s.toList := fun hmem =>
  absurd (h.2 _ hmem) (by decide)

end Words

/-! ## Integers -/

namespace Text.Decimal

/-- Digits and the minus sign. -/
def isNumeralChar (c : Char) : Bool :=
  c.isDigit || c == '-'

theorem isDigit_of_mem_repr {n : Nat} {c : Char} (h : c ∈ n.repr.toList) : c.isDigit = true := by
  rw [Nat.toList_repr] at h
  exact Nat.isDigit_of_mem_toDigits (by decide) (by decide) h

theorem notMem_repr {c : Char} (h : c.isDigit = false) (n : Nat) : c ∉ n.repr.toList := fun hc =>
  absurd (isDigit_of_mem_repr hc) (by simp [h])

theorem notMem_ofInt {c : Char} (h : isNumeralChar c = false) (i : Int) : c ∉ (ofInt i).toList := by
  obtain ⟨hdigit, hminus⟩ : c.isDigit = false ∧ c ≠ '-' := by simpa [isNumeralChar] using h
  have hrepr := notMem_repr hdigit i.natAbs
  unfold ofInt
  split
  · simpa [hminus] using hrepr
  · exact hrepr

theorem ofInt_injective {i j : Int} (h : ofInt i = ofInt j) : i = j := by
  have hread := readInt?_ofInt i
  rw [h, readInt?_ofInt, Option.some.injEq] at hread
  exact hread.symm

theorem ofInt_natCast (n : Nat) : ofInt n = n.repr := by
  rw [ofInt, if_neg (by omega), Int.natAbs_natCast]

theorem repr_injective {m n : Nat} (h : m.repr = n.repr) : m = n := by
  rw [← ofInt_natCast, ← ofInt_natCast] at h
  exact Int.ofNat_inj.mp (ofInt_injective h)

/-- Two integers are told from what is written for them with anything but a numeral in between. -/
theorem ofInt_append_injective {c : Char} (hc : isNumeralChar c = false) {i j i' j' : Int}
    (h : (ofInt i).toList ++ c :: (ofInt j).toList = (ofInt i').toList ++ c :: (ofInt j').toList) :
    i = i' ∧ j = j' := by
  obtain ⟨hi, hj⟩ := append_inj_of_notMem h (notMem_ofInt hc i) (notMem_ofInt hc i')
  exact ⟨ofInt_injective (String.toList_inj.mp hi), ofInt_injective (String.toList_inj.mp hj)⟩

theorem isNumeralChar_of_isBlank {c : Char} (h : isBlank c = true) : isNumeralChar c = false := by
  simp only [isBlank, Bool.or_eq_true, beq_iff_eq] at h
  rcases h with (((rfl | rfl) | rfl) | rfl) | rfl <;> decide

theorem isSolid_ofInt (i : Int) : IsSolid (ofInt i) := by
  constructor
  · intro hempty
    have hread := readInt?_ofInt i
    rw [hempty] at hread
    exact absurd hread (by simp [readInt?, readNat?])
  · intro c hc
    by_contra hblank
    exact notMem_ofInt (isNumeralChar_of_isBlank (by simpa using hblank)) i hc

theorem isSolid_repr (n : Nat) : IsSolid n.repr := by
  rw [← ofInt_natCast]
  exact isSolid_ofInt n

end Text.Decimal

open Text.Decimal

/-! ## Colors -/

theorem Color.toList_text (color : Color) :
    color.text.toList =
      ['r', 'g', 'b', '('] ++ (color.red.toNat.repr.toList ++ ',' ::
        (color.green.toNat.repr.toList ++ ',' :: (color.blue.toNat.repr.toList ++ [')']))) := by
  simp [Color.text]

theorem Color.text_injective {color color' : Color} (h : color.text = color'.text) :
    color = color' := by
  have hcomma : ∀ n : Nat, ',' ∉ n.repr.toList := notMem_repr (by decide)
  have hlists := congrArg String.toList h
  rw [toList_text, toList_text, List.append_cancel_left_eq] at hlists
  obtain ⟨hred, hlists⟩ := append_inj_of_notMem hlists (hcomma _) (hcomma _)
  obtain ⟨hgreen, hlists⟩ := append_inj_of_notMem hlists (hcomma _) (hcomma _)
  have hblue := List.append_cancel_right hlists
  have hbyte : ∀ {a b : UInt8}, a.toNat.repr.toList = b.toNat.repr.toList → a = b := by
    intro a b hab
    exact UInt8.toNat_inj.mp (repr_injective (String.toList_inj.mp hab))
  obtain ⟨red, green, blue⟩ := color
  obtain ⟨red', green', blue'⟩ := color'
  obtain rfl : red = red' := hbyte hred
  obtain rfl : green = green' := hbyte hgreen
  obtain rfl : blue = blue' := hbyte hblue
  rfl

theorem Color.isSolid_text (color : Color) : IsSolid color.text :=
  have hcomma : IsSolid "," := by decide
  have hopening : IsSolid "rgb(" := by decide
  have hclosing : IsSolid ")" := by decide
  (((((hopening.append (isSolid_repr _)).append hcomma).append (isSolid_repr _)).append hcomma).append
    (isSolid_repr _)).append hclosing

/-! ## Words with single spaces between them -/

theorem splitOn_intercalate_space {words : List String} (hne : words ≠ [])
    (h : ∀ word ∈ words, ' ' ∉ word.toList) :
    (" ".intercalate words).toList.splitOn ' ' = words.map String.toList := by
  have hwords : ∀ cs ∈ words.map String.toList, ' ' ∉ cs := by
    intro cs hcs
    obtain ⟨word, hword, rfl⟩ := List.mem_map.mp hcs
    exact h word hword
  rw [String.toList_intercalate]
  exact List.splitOn_intercalate ' ' hwords (by simpa using hne)

theorem intercalate_space_injective {words words' : List String} (h : ∀ word ∈ words, IsSolid word)
    (h' : ∀ word ∈ words', IsSolid word) (heq : " ".intercalate words = " ".intercalate words') :
    words = words' := by
  have hspace : ∀ {ws : List String}, (∀ word ∈ ws, IsSolid word) → ∀ word ∈ ws, ' ' ∉ word.toList :=
    fun hws word hword => (hws word hword).space_notMem
  -- what has no word at all is split into one empty word
  have hempty : ∀ {ws : List String}, (∀ word ∈ ws, IsSolid word) →
      " ".intercalate [] = " ".intercalate ws → ws = [] := by
    intro ws hws hnil
    by_contra hne
    have hsplit := splitOn_intercalate_space hne (hspace hws)
    rw [← hnil] at hsplit
    obtain ⟨word, rfl, hword⟩ := List.map_eq_singleton_iff.mp hsplit.symm
    have hword' : word = "" := String.toList_inj.mp hword
    exact (hws word (by simp)).1 hword'
  by_cases hne : words = []
  · subst hne
    exact (hempty h' heq).symm
  · by_cases hne' : words' = []
    · subst hne'
      exact hempty h heq.symm
    · have hsplit := splitOn_intercalate_space hne (hspace h)
      rw [heq, splitOn_intercalate_space hne' (hspace h')] at hsplit
      exact ((List.map_inj_right fun _ _ => String.toList_inj.mp).mp hsplit).symm

namespace Svg

/-! ## Pixels -/

attribute [ext] Pixel

namespace Pixel

theorem toList_text (p : Pixel) : p.text.toList = (ofInt p.x).toList ++ ',' :: (ofInt p.y).toList := by
  simp [text]

theorem text_injective {p q : Pixel} (h : p.text = q.text) : p = q := by
  have hlists := congrArg String.toList h
  rw [toList_text, toList_text] at hlists
  obtain ⟨hx, hy⟩ := ofInt_append_injective (by decide) hlists
  exact Pixel.ext hx hy

theorem isSolid_text (p : Pixel) : IsSolid p.text :=
  have hcomma : IsSolid "," := by decide
  ((isSolid_ofInt _).append hcomma).append (isSolid_ofInt _)

/-- A list of points is told by its text, also the empty one. -/
theorem intercalate_text_injective {ps qs : List Pixel}
    (h : " ".intercalate (ps.map text) = " ".intercalate (qs.map text)) : ps = qs := by
  have hwords : ∀ ps : List Pixel, ∀ word ∈ ps.map text, IsSolid word := fun _ =>
    List.forall_mem_map.mpr fun p _ => p.isSolid_text
  have hmap := intercalate_space_injective (hwords ps) (hwords qs) h
  exact (List.map_inj_right fun _ _ => text_injective).mp hmap

end Pixel

/-! ## Halves -/

namespace Half

/-- How half of `n` is written. -/
def digits (n : Nat) : String :=
  if n % 2 = 0 then (shortest (n / 2)).repr else (n / 2).repr ++ ".5"

theorem text_eq (h : Half) :
    h.text = if h.twice < 0 then "-" ++ digits h.twice.natAbs else digits h.twice.natAbs := rfl

theorem notMem_digits {c : Char} (hdigit : c.isDigit = false) (hpoint : c ≠ '.') (n : Nat) :
    c ∉ (digits n).toList := by
  have hfive : c ≠ '5' := by
    rintro rfl
    contradiction
  unfold digits
  split
  · exact notMem_repr hdigit _
  · simpa [hpoint, hfive] using notMem_repr hdigit (n / 2)

theorem digits_injective {m n : Nat} (hm : nearest53 m = m) (hn : nearest53 n = n)
    (h : digits m = digits n) : m = n := by
  have hpoint : ∀ n : Nat, '.' ∉ n.repr.toList := notMem_repr (by decide)
  unfold digits at h
  split_ifs at h with hmeven hneven hneven
  · -- what is written rounds back to the whole number
    have hshort := repr_injective h
    have hm' := nearest53_shortest (nearest53_half hmeven hm)
    rw [hshort, nearest53_shortest (nearest53_half hneven hn)] at hm'
    omega
  · exact absurd (congrArg String.toList h) fun hlists => hpoint _ (by rw [hlists]; simp)
  · exact absurd (congrArg String.toList h.symm) fun hlists => hpoint _ (by rw [hlists]; simp)
  · have hlists := congrArg String.toList h
    rw [String.toList_append, String.toList_append] at hlists
    have hhalf := repr_injective (String.toList_inj.mp (List.append_cancel_right hlists))
    omega

theorem text_injective {a b : Half} (ha : a.Fits) (hb : b.Fits) (h : a.text = b.text) : a = b := by
  have hminus : ∀ n : Nat, '-' ∉ (digits n).toList := notMem_digits (by decide) (by decide)
  rw [text_eq, text_eq] at h
  have habs : a.twice = b.twice := by
    split_ifs at h with hneg hneg' hneg'
    · have hlists := congrArg String.toList h
      rw [String.toList_append, String.toList_append] at hlists
      have := digits_injective ha hb (String.toList_inj.mp (List.append_cancel_left hlists))
      omega
    · exact absurd (congrArg String.toList h.symm) fun hlists => hminus _ (by rw [hlists]; simp)
    · exact absurd (congrArg String.toList h) fun hlists => hminus _ (by rw [hlists]; simp)
    · have := digits_injective ha hb h
      omega
  obtain ⟨twice⟩ := a
  obtain ⟨twice'⟩ := b
  exact congrArg Half.mk habs

end Half

end Svg

end PenPlot
