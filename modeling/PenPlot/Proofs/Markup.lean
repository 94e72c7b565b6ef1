import Mathlib.Data.List.Nodup
import PenPlot.Proofs.Lines
import PenPlot.Svg.Document

/-!
# Tags as text

In a tag, a name ends at the first character that is no letter, the name of an attribute at the equals sign
and its value at the quote. As long as no name and no value has the character that ends it
(`Attribute.Legible`), a tag tells its name and, up to their order, its attributes (`tag_injective`). The order
is that of the names, where these are all different (`Attribute.eq_of_perm`).
-/

namespace PenPlot.Svg

open Text

/-! ## Values -/

/-- Neither a quote nor a line feed. -/
def IsPlain (s : String) : Prop :=
  '"' ∉ s.toList ∧ '\n' ∉ s.toList

instance (s : String) : Decidable (IsPlain s) :=
  inferInstanceAs (Decidable (_ ∧ _))

@[simp] theorem isPlain_append {s t : String} : IsPlain (s ++ t) ↔ IsPlain s ∧ IsPlain t := by
  simp only [IsPlain, String.toList_append, List.mem_append, not_or]
  exact and_and_and_comm

theorem isPlain_intercalate {s : String} {ts : List String} (hs : IsPlain s)
    (h : ∀ t ∈ ts, IsPlain t) : IsPlain (s.intercalate ts) := by
  induction ts with
  | nil => exact ⟨by simp, by simp⟩
  | cons t ts ih =>
    have ht : IsPlain t := h t (by simp)
    by_cases hnil : ts = []
    · rwa [hnil, String.intercalate_singleton]
    · rw [String.intercalate_cons_of_ne_nil hnil, isPlain_append, isPlain_append]
      exact ⟨⟨ht, hs⟩, ih fun u hu => h u (by simp [hu])⟩

/-! ## Attributes -/

namespace Attribute

/-- The name has no equals sign, the value no quote, and neither a line feed. -/
@[mk_iff]
structure Legible (a : Attribute) : Prop where
  name : '=' ∉ a.name.toList ∧ '\n' ∉ a.name.toList
  value : IsPlain a.value

theorem toList_text (a : Attribute) :
    a.text.toList = ' ' :: (a.name.toList ++ '=' :: '"' :: (a.value.toList ++ ['"'])) := by
  simp [text]

theorem toList_texts (as : List Attribute) :
    (texts as).toList = (sort as).flatMap fun a => a.text.toList := by
  rw [texts, String.toList_join, List.flatMap_map]

theorem insert_perm (a : Attribute) (as : List Attribute) : (insert a as).Perm (a :: as) := by
  induction as with
  | nil => exact .refl _
  | cons b as ih =>
    rw [insert]
    split
    · exact .refl _
    · exact (ih.cons b).trans (.swap a b as)

theorem sort_perm (as : List Attribute) : (sort as).Perm as := by
  induction as with
  | nil => exact .refl _
  | cons a as ih => exact (insert_perm a (sort as)).trans (ih.cons a)

/-- An attribute is told from what follows it. -/
theorem text_append_injective {a b : Attribute} {rest rest' : List Char} (ha : a.Legible)
    (hb : b.Legible) (h : a.text.toList ++ rest = b.text.toList ++ rest') : a = b ∧ rest = rest' := by
  simp only [toList_text, List.cons_append, List.append_assoc, List.nil_append, List.cons.injEq,
    true_and] at h
  obtain ⟨hname, hbehind⟩ := append_inj_of_notMem h ha.name.1 hb.name.1
  obtain ⟨hvalue, hrest⟩ := append_inj_of_notMem (List.cons.inj hbehind).2 ha.value.1 hb.value.1
  obtain ⟨name, value⟩ := a
  obtain ⟨name', value'⟩ := b
  obtain rfl : name = name' := String.toList_inj.mp hname
  obtain rfl : value = value' := String.toList_inj.mp hvalue
  exact ⟨rfl, hrest⟩

/-- Attributes one behind the other are told from each other and from what follows, unless that begins with a
space. -/
theorem flatMap_text_injective {as bs : List Attribute} {rest rest' : List Char}
    (ha : ∀ a ∈ as, a.Legible) (hb : ∀ b ∈ bs, b.Legible) (hrest : rest.head? ≠ some ' ')
    (hrest' : rest'.head? ≠ some ' ')
    (h : as.flatMap (fun a => a.text.toList) ++ rest =
      bs.flatMap (fun b => b.text.toList) ++ rest') : as = bs ∧ rest = rest' := by
  induction as generalizing bs with
  | nil =>
    cases bs with
    | nil => exact ⟨rfl, h⟩
    | cons b bs =>
      rw [List.flatMap_nil, List.nil_append, List.flatMap_cons, toList_text] at h
      exact absurd (congrArg List.head? h) hrest
  | cons a as ih =>
    cases bs with
    | nil =>
      rw [List.flatMap_nil, List.nil_append, List.flatMap_cons, toList_text] at h
      exact absurd (congrArg List.head? h.symm) hrest'
    | cons b bs =>
      rw [List.flatMap_cons, List.flatMap_cons, List.append_assoc, List.append_assoc] at h
      obtain ⟨rfl, hrests⟩ := text_append_injective (ha a (by simp)) (hb b (by simp)) h
      have ha' : ∀ c ∈ as, c.Legible := fun c hc => ha c (by simp [hc])
      have hb' : ∀ c ∈ bs, c.Legible := fun c hc => hb c (by simp [hc])
      obtain ⟨rfl, hend⟩ := ih ha' hb' hrests
      exact ⟨rfl, hend⟩

/-- Legible attributes stay on one line. -/
theorem newline_notMem_texts {as : List Attribute} (h : ∀ a ∈ as, a.Legible) :
    '\n' ∉ (texts as).toList := by
  rw [toList_texts, List.mem_flatMap]
  rintro ⟨a, ha, hc⟩
  obtain ⟨⟨-, hname⟩, -, hvalue⟩ := h a ((sort_perm as).mem_iff.mp ha)
  rw [toList_text] at hc
  simp [hname, hvalue] at hc

/-- The order of the names decides on that of the attributes, where the names are all different. -/
theorem eq_of_perm {as bs : List Attribute} (h : as.Perm bs) (hnames : as.map name = bs.map name)
    (hb : (bs.map name).Nodup) : as = bs := by
  refine List.ext_getElem h.length_eq fun i hi hi' => ?_
  have hname := List.getElem_of_eq hnames ((List.length_map _).symm ▸ hi)
  rw [List.getElem_map, List.getElem_map] at hname
  exact List.inj_on_of_nodup_map hb (h.mem_iff.mp (List.getElem_mem hi)) (List.getElem_mem hi') hname

end Attribute

/-! ## Tags -/

/-- An empty element of that name, without the line feed behind it. -/
def tag (name : String) (attributes : List Attribute) : String :=
  "<" ++ name ++ Attribute.texts attributes ++ "/>"

section Tags

variable {name name' : String} {as bs : List Attribute}

theorem tagLine_eq (name : String) (as : List Attribute) : tagLine name as = tag name as ++ "\n" := by
  have hend : "/>\n" = "/>" ++ "\n" := by decide
  rw [tagLine, hend, ← String.append_assoc, tag]

theorem toList_tag (name : String) (as : List Attribute) :
    (tag name as).toList =
      '<' :: (name.toList ++ ((Attribute.sort as).flatMap (fun a => a.text.toList) ++ ['/', '>'])) := by
  simp [tag, Attribute.toList_texts]

theorem newline_notMem_tag (hname : name.toList.all Char.isAlpha = true) (h : ∀ a ∈ as, a.Legible) :
    '\n' ∉ (tag name as).toList := by
  have htexts := Attribute.newline_notMem_texts h
  have hno : '\n' ∉ name.toList := by
    intro hmem
    exact absurd (List.all_eq_true.mp hname _ hmem) (by decide)
  simp [tag, htexts, hno]

/-- A tag tells its name and its attributes. -/
theorem tag_injective (hname : name.toList.all Char.isAlpha = true)
    (hname' : name'.toList.all Char.isAlpha = true) (ha : ∀ a ∈ as, a.Legible)
    (hb : ∀ b ∈ bs, b.Legible) (h : tag name as = tag name' bs) : name = name' ∧ as.Perm bs := by
  have hperm := Attribute.sort_perm as
  have hperm' := Attribute.sort_perm bs
  -- behind the name there is a space or the slash
  have hstop : ∀ as : List Attribute,
      ∀ c ∈ (as.flatMap (fun a => a.text.toList) ++ ['/', '>']).head?, c.isAlpha = false := by
    intro as
    cases as with
    | nil => simp
    | cons a as => simp [Attribute.toList_text]
  have hlists := congrArg String.toList h
  rw [toList_tag, toList_tag, List.cons.injEq] at hlists
  obtain ⟨hnames, hrest⟩ := append_inj_of_stop hlists.2 (List.all_eq_true.mp hname)
    (List.all_eq_true.mp hname') (hstop _) (hstop _)
  obtain ⟨hsort, -⟩ := Attribute.flatMap_text_injective
    (fun a hmem => ha a (hperm.mem_iff.mp hmem)) (fun b hmem => hb b (hperm'.mem_iff.mp hmem))
    (by simp) (by simp) hrest
  exact ⟨String.toList_inj.mp hnames, hperm.symm.trans (hsort ▸ hperm')⟩

end Tags

end PenPlot.Svg
