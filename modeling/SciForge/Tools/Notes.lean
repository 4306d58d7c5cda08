import SciForge.Lib.Machine
import SciForge.Lib.Sections
import Mathlib.Data.List.Infix
import Mathlib.Data.List.DropRight
import Mathlib.Data.List.Forall2

/-!
# The release notes

The three awk programs of `release.sh` over the notes: the guard of an empty `## Unreleased`, the filing of its entries
under the version, and the section a tag is annotated with.
-/

namespace SciForge.Tools.Notes

abbrev Line := List Char

/-- `/^## Unreleased$/`. -/
def unreleased : Line := "## Unreleased".toList

/-- `/^## /`. -/
def isHeading (line : Line) : Bool := "## ".toList.isPrefixOf line

/-- `NF`: a line with a field. -/
def hasField (line : Line) : Bool := line.any (fun c => c ≠ ' ' && c ≠ '\t')

/-- The guard: whether it leaves with a field found under `## Unreleased`. -/
def describedFrom (f : Bool) : List Line → Bool
  | [] => false
  | line :: rest =>
    if line = unreleased then describedFrom true rest
    else if f && isHeading line then false
    else if f && hasField line then true
    else describedFrom f rest

def described (notes : List Line) : Bool := describedFrom false notes

/-- `"## " v " — " d`. -/
def heading (version date : Line) : Line := "## ".toList ++ version ++ " — ".toList ++ date

/-- The notes with the heading under each `## Unreleased`. -/
def file (version date : Line) (notes : List Line) : List Line :=
  notes.flatMap (fun line => if line = unreleased then [line, [], heading version date] else [line])

/-- What `index($0, h) == 1` looks for. -/
def sectionStart (version : Line) : Line := "## ".toList ++ version ++ [' ']

/-- The lines printed: from a line that begins with `h` on, to the next heading that does not. -/
def bodyFrom (h : Line) (f : Bool) : List Line → List Line
  | [] => []
  | line :: rest =>
    if h.isPrefixOf line then line :: bodyFrom h true rest
    else if f && isHeading line then []
    else if f then line :: bodyFrom h f rest
    else bodyFrom h f rest

/-- The section of the version, as `$(…)` has it: without the empty lines at its end. -/
def annotation (version : Line) (notes : List Line) : List Line :=
  (bodyFrom (sectionStart version) false notes).rdropWhile (· = [])

/-- The lines under the first `## Unreleased`. -/
def entries (notes : List Line) : List Line :=
  (notes.dropWhile (· ≠ unreleased)).tail.takeWhile (!isHeading ·)

/-! ### Headings -/

/-- `$year.$month.$patch`, or any text without a blank. -/
structure Version where
  text : Line
  plain : ' ' ∉ text

/-- The line is in front of the version's section. -/
def starts (version : Line) (line : Line) : Bool := (sectionStart version).isPrefixOf line

lemma isHeading_unreleased : isHeading unreleased = true := by decide

lemma isHeading_append (rest : Line) : isHeading ("## ".toList ++ rest) = true :=
  List.isPrefixOf_iff_prefix.mpr (List.prefix_append _ _)

lemma isHeading_heading (version date : Line) : isHeading (heading version date) = true := by
  unfold heading
  rw [List.append_assoc, List.append_assoc]
  exact isHeading_append _

lemma isHeading_of_starts {version line : Line} (h : starts version line = true) : isHeading line = true := by
  obtain ⟨rest, rfl⟩ := List.isPrefixOf_iff_prefix.mp h
  unfold sectionStart
  rw [List.append_assoc, List.append_assoc]
  exact isHeading_append _

lemma not_starts_of_plain {version line : Line} (h : isHeading line = false) : starts version line = false := by
  rw [Bool.eq_false_iff]
  intro hstart
  rw [isHeading_of_starts hstart] at h
  cases h

lemma ne_unreleased_of_plain {line : Line} (h : isHeading line = false) : line ≠ unreleased := by
  rintro rfl
  rw [isHeading_unreleased] at h
  cases h

/-- The entries still to release are in front of no version's section: their heading has no second blank. -/
lemma starts_unreleased (version : Line) : starts version unreleased = false := by
  rw [Bool.eq_false_iff]
  intro h
  obtain ⟨rest, hrest⟩ := List.isPrefixOf_iff_prefix.mp h
  unfold sectionStart at hrest
  rw [List.append_assoc, List.append_assoc] at hrest
  have hafter : version ++ ([' '] ++ rest) = "Unreleased".toList := List.append_cancel_left hrest
  have hblank : ' ' ∈ "Unreleased".toList := by
    rw [← hafter]
    exact List.mem_append_right _ List.mem_cons_self
  revert hblank
  decide

lemma heading_ne_unreleased (version date : Line) : heading version date ≠ unreleased := by
  intro h
  have hstart : starts version (heading version date) = true := by
    refine List.isPrefixOf_iff_prefix.mpr ⟨"— ".toList ++ date, ?_⟩
    unfold sectionStart heading
    simp only [List.append_assoc]
    rfl
  rw [h, starts_unreleased] at hstart
  cases hstart

lemma starts_heading (version other : Version) (date : Line) :
    starts other.text (heading version.text date) = true ↔ other.text = version.text := by
  have hheading : heading version.text date = "## ".toList ++ (version.text ++ ' ' :: ("— ".toList ++ date)) := by
    unfold heading
    simp only [List.append_assoc]
    rfl
  unfold starts sectionStart
  rw [List.isPrefixOf_iff_prefix, hheading]
  constructor
  · rintro ⟨rest, h⟩
    rw [List.append_assoc, List.append_assoc] at h
    exact (append_sep_inj other.plain version.plain (List.append_cancel_left h)).1
  · intro h
    refine ⟨"— ".toList ++ date, ?_⟩
    rw [h]
    simp only [List.append_assoc]
    rfl

/-! ### Over sections -/

abbrev Part := Section isHeading

abbrev Doc := Sections isHeading

/-- `## Unreleased` with the blank line alone, then its entries under the version's heading. -/
def filePart (version date : Line) (s : Part) : List Part :=
  if s.head = unreleased then
    [⟨unreleased, [[]], isHeading_unreleased, fun _ h => List.mem_singleton.mp h ▸ rfl⟩,
      ⟨heading version date, s.body, isHeading_heading version date, s.plain⟩]
  else [s]

lemma file_append (version date : Line) (notes rest : List Line) :
    file version date (notes ++ rest) = file version date notes ++ file version date rest := List.flatMap_append

lemma file_of_plain (version date : Line) {notes : List Line} (h : ∀ line ∈ notes, isHeading line = false) :
    file version date notes = notes := by
  induction notes with
  | nil => rfl
  | cons line notes ih =>
    have hline : file version date [line] = [line] := by
      unfold file
      rw [List.flatMap_singleton, if_neg (ne_unreleased_of_plain (h line List.mem_cons_self))]
    rw [← List.singleton_append, file_append, hline, ih (fun l hl => h l (List.mem_cons_of_mem _ hl))]

lemma file_partLines (version date : Line) (parts : List Part) :
    file version date (Sections.partLines parts) = Sections.partLines (parts.flatMap (filePart version date)) := by
  induction parts with
  | nil => rfl
  | cons s parts ih =>
    rw [Sections.partLines_cons, ← List.singleton_append, file_append, file_append, file_of_plain _ _ s.plain, ih,
      List.flatMap_cons, Sections.partLines_append]
    unfold file filePart
    rw [List.flatMap_singleton]
    split
    · next hs => simp [hs]
    · simp

lemma file_lines (version date : Line) (doc : Doc) :
    file version date doc.lines = doc.before ++ Sections.partLines (doc.parts.flatMap (filePart version date)) := by
  unfold Sections.lines
  rw [file_append, file_of_plain _ _ doc.plain, file_partLines]

lemma bodyFrom_starts {version line : Line} (h : starts version line = true) (rest : List Line) (f : Bool) :
    bodyFrom (sectionStart version) f (line :: rest) = line :: bodyFrom (sectionStart version) true rest := if_pos h

lemma bodyFrom_other {version line : Line} (h : starts version line = false) (rest : List Line) (f : Bool) :
    bodyFrom (sectionStart version) f (line :: rest) =
      if f && isHeading line then [] else if f then line :: bodyFrom (sectionStart version) f rest
        else bodyFrom (sectionStart version) f rest := by
  rw [bodyFrom, if_neg]
  unfold starts at h
  rw [h]
  exact Bool.false_ne_true

lemma bodyFrom_plain (version : Line) {lines : List Line} (h : ∀ line ∈ lines, isHeading line = false)
    (rest : List Line) (f : Bool) :
    bodyFrom (sectionStart version) f (lines ++ rest) =
      (if f then lines else []) ++ bodyFrom (sectionStart version) f rest := by
  induction lines with
  | nil => cases f <;> rfl
  | cons line lines ih =>
    have hline := h line List.mem_cons_self
    rw [List.cons_append, bodyFrom_other (not_starts_of_plain hline), hline, Bool.and_false,
      if_neg Bool.false_ne_true, ih (fun l hl => h l (List.mem_cons_of_mem _ hl))]
    cases f <;> rfl

lemma bodyFrom_leading (version : Line) (parts : List Part) :
    bodyFrom (sectionStart version) true (Sections.partLines parts) =
      Sections.partLines (Sections.leading (starts version) parts) := by
  induction parts with
  | nil => rfl
  | cons s parts ih =>
    rw [Sections.partLines_cons]
    cases hs : starts version s.head with
    | true =>
      rw [Sections.leading_cons_of_pos hs, bodyFrom_starts hs, bodyFrom_plain version s.plain, if_pos rfl, ih,
        Sections.partLines_cons]
    | false =>
      rw [Sections.leading_cons_of_neg hs, bodyFrom_other hs, s.marked, Bool.true_and, if_pos rfl,
        Sections.partLines_nil]

/-- The lines printed are those of the first stretch of sections of the version. -/
lemma bodyFrom_stretch (version : Line) (parts : List Part) :
    bodyFrom (sectionStart version) false (Sections.partLines parts) =
      Sections.partLines (Sections.stretch (starts version) parts) := by
  induction parts with
  | nil => rfl
  | cons s parts ih =>
    rw [Sections.partLines_cons]
    cases hs : starts version s.head with
    | true =>
      rw [Sections.stretch_cons_of_pos hs, bodyFrom_starts hs, bodyFrom_plain version s.plain, if_pos rfl,
        bodyFrom_leading, Sections.partLines_cons]
    | false =>
      rw [Sections.stretch_cons_of_neg hs, bodyFrom_other hs, Bool.false_and, if_neg Bool.false_ne_true,
        if_neg Bool.false_ne_true, bodyFrom_plain version s.plain, if_neg Bool.false_ne_true, List.nil_append, ih]

lemma annotation_lines (version : Line) (before : List Line) (h : ∀ line ∈ before, isHeading line = false)
    (parts : List Part) : annotation version (before ++ Sections.partLines parts) =
      (Sections.partLines (Sections.stretch (starts version) parts)).rdropWhile (· = []) := by
  unfold annotation
  rw [bodyFrom_plain version h, if_neg Bool.false_ne_true, List.nil_append, bodyFrom_stretch]

/-! ### The guard -/

lemma describedFrom_plain {lines : List Line} (h : ∀ line ∈ lines, isHeading line = false) (rest : List Line)
    (f : Bool) : describedFrom f (lines ++ rest) = ((f && lines.any hasField) || describedFrom f rest) := by
  induction lines with
  | nil => rw [List.any_nil, Bool.and_false, Bool.false_or, List.nil_append]
  | cons line lines ih =>
    have hline := h line List.mem_cons_self
    rw [List.cons_append, describedFrom, if_neg (ne_unreleased_of_plain hline), hline, Bool.and_false,
      if_neg Bool.false_ne_true, ih (fun l hl => h l (List.mem_cons_of_mem _ hl)), List.any_cons]
    cases f <;> cases hasField line <;> rfl

lemma describedFrom_leading (parts : List Part) : describedFrom true (Sections.partLines parts) =
    (Sections.leading (· = unreleased) parts).any (fun s => s.body.any hasField) := by
  induction parts with
  | nil => rfl
  | cons s parts ih =>
    rw [Sections.partLines_cons, describedFrom]
    by_cases hs : s.head = unreleased
    · rw [if_pos hs, describedFrom_plain s.plain, Bool.true_and, ih,
        Sections.leading_cons_of_pos (p := (· = unreleased)) (decide_eq_true hs), List.any_cons]
    · rw [if_neg hs, s.marked, Bool.true_and, if_pos rfl,
        Sections.leading_cons_of_neg (p := (· = unreleased)) (decide_eq_false hs), List.any_nil]

lemma describedFrom_stretch (parts : List Part) : describedFrom false (Sections.partLines parts) =
    (Sections.stretch (· = unreleased) parts).any (fun s => s.body.any hasField) := by
  induction parts with
  | nil => rfl
  | cons s parts ih =>
    rw [Sections.partLines_cons, describedFrom]
    by_cases hs : s.head = unreleased
    · rw [if_pos hs, describedFrom_plain s.plain, Bool.true_and, describedFrom_leading,
        Sections.stretch_cons_of_pos (p := (· = unreleased)) (decide_eq_true hs), List.any_cons]
    · rw [if_neg hs, Bool.false_and, if_neg Bool.false_ne_true, Bool.false_and, if_neg Bool.false_ne_true,
        describedFrom_plain s.plain, Bool.false_and, Bool.false_or, ih,
        Sections.stretch_cons_of_neg (p := (· = unreleased)) (decide_eq_false hs)]

/-! ### The entries to release -/

lemma ne_unreleased_of_front {front : List Part} (hfront : ∀ t ∈ front, t.head ≠ unreleased) :
    ∀ line ∈ Sections.partLines front, decide (line ≠ unreleased) = true := by
  intro line hline
  obtain ⟨t, ht, hmem⟩ := List.mem_flatMap.mp hline
  refine decide_eq_true ?_
  rcases List.mem_cons.mp hmem with rfl | hbody
  · exact hfront t ht
  · exact ne_unreleased_of_plain (t.plain line hbody)

lemma exists_unreleased {doc : Doc} (h : unreleased ∈ doc.lines) : ∃ front s back,
    doc.parts = front ++ s :: back ∧ s.head = unreleased ∧ ∀ t ∈ front, t.head ≠ unreleased := by
  obtain ⟨s, hs, hhead⟩ := Sections.head_of_mem h isHeading_unreleased
  have hdrop : doc.parts.dropWhile (fun t => t.head ≠ unreleased) ≠ [] := by
    intro hnil
    have := List.dropWhile_eq_nil_iff.mp hnil s hs
    exact of_decide_eq_true this hhead
  obtain ⟨t, back, hback⟩ := List.exists_cons_of_ne_nil hdrop
  refine ⟨doc.parts.takeWhile (fun t => t.head ≠ unreleased), t, back, ?_, ?_, fun u hu => ?_⟩
  · rw [← hback]
    exact List.takeWhile_append_dropWhile.symm
  · have hfirst := List.head?_dropWhile_not (fun t : Part => decide (t.head ≠ unreleased)) doc.parts
    rw [hback] at hfirst
    simpa using hfirst
  · exact of_decide_eq_true (List.mem_takeWhile_imp (p := fun t : Part => decide (t.head ≠ unreleased)) hu)

section

variable {doc : Doc} {front back : List Part} {s : Part}

lemma lines_split (hparts : doc.parts = front ++ s :: back) : doc.lines =
    (doc.before ++ Sections.partLines front) ++ s.head :: (s.body ++ Sections.partLines back) := by
  unfold Sections.lines
  rw [hparts, Sections.partLines_append, Sections.partLines_cons, List.append_assoc]

lemma dropWhile_split (hparts : doc.parts = front ++ s :: back) (hs : s.head = unreleased)
    (hfront : ∀ t ∈ front, t.head ≠ unreleased) :
    doc.lines.dropWhile (· ≠ unreleased) = unreleased :: (s.body ++ Sections.partLines back) := by
  have hall : ∀ line ∈ doc.before ++ Sections.partLines front, decide (line ≠ unreleased) = true := by
    intro line hline
    rcases List.mem_append.mp hline with hbefore | hline
    · exact decide_eq_true (ne_unreleased_of_plain (doc.plain line hbefore))
    · exact ne_unreleased_of_front hfront line hline
  rw [lines_split hparts, List.dropWhile_append_of_pos hall, hs]
  exact List.dropWhile_cons_of_neg (by simp)

lemma entries_split (hparts : doc.parts = front ++ s :: back) (hs : s.head = unreleased)
    (hfront : ∀ t ∈ front, t.head ≠ unreleased) : entries doc.lines = s.body := by
  unfold entries
  rw [dropWhile_split hparts hs hfront, List.tail_cons,
    List.takeWhile_append_of_pos (fun line hline => by rw [s.plain line hline]; rfl)]
  cases back with
  | nil => exact List.append_nil _
  | cons t back =>
    rw [Sections.partLines_cons, List.takeWhile_cons_of_neg (by rw [t.marked]; exact Bool.false_ne_true),
      List.append_nil]

end

/-! ### Filing a release -/

lemma replaces_filePart (version : Version) (date : Line) {other : Version} (hne : other.text ≠ version.text) :
    Sections.Replaces (starts other.text) (filePart version.text date) := by
  constructor
  · intro s hs
    unfold filePart
    rw [if_neg]
    rintro hhead
    rw [hhead, starts_unreleased] at hs
    cases hs
  · intro s hs
    unfold filePart
    split
    · refine ⟨List.cons_ne_nil _ _, fun t ht => ?_⟩
      simp only [List.mem_cons, List.not_mem_nil, or_false] at ht
      rcases ht with rfl | rfl
      · exact starts_unreleased _
      · exact Bool.eq_false_iff.mpr (fun h => hne ((starts_heading version other date).mp h))
    · exact ⟨List.cons_ne_nil _ _, fun t ht => List.mem_singleton.mp ht ▸ hs⟩

lemma annotation_file (version : Version) (date : Line) {other : Version} (hne : other.text ≠ version.text)
    (notes : List Line) : annotation other.text (file version.text date notes) = annotation other.text notes := by
  rw [← @Sections.lines_ofList _ isHeading notes]
  generalize (Sections.ofList notes : Doc) = doc
  rw [file_lines, annotation_lines _ _ doc.plain, Sections.stretch_flatMap (replaces_filePart version date hne),
    Sections.lines, annotation_lines _ _ doc.plain]

section

variable {doc : Doc} {front back : List Part} {s : Part} {version : Version}

lemma flatMap_front (hfront : ∀ t ∈ front, t.head ≠ unreleased) (date : Line) :
    front.flatMap (filePart version.text date) = front := by
  induction front with
  | nil => rfl
  | cons t front ih =>
    rw [List.flatMap_cons, ih (fun u hu => hfront u (List.mem_cons_of_mem _ hu))]
    unfold filePart
    rw [if_neg (hfront t List.mem_cons_self), List.singleton_append]

lemma leading_filed (hfresh : ∀ t ∈ back, starts version.text t.head = false) (date : Line) :
    Sections.leading (starts version.text) (back.flatMap (filePart version.text date)) = [] := by
  cases back with
  | nil => rfl
  | cons t back =>
    rw [List.flatMap_cons]
    unfold filePart
    split
    · exact Sections.leading_cons_of_neg (starts_unreleased _) _
    · exact Sections.leading_cons_of_neg (hfresh t List.mem_cons_self) _

lemma bodyFrom_filed (hparts : doc.parts = front ++ s :: back) (hs : s.head = unreleased)
    (hfront : ∀ t ∈ front, t.head ≠ unreleased) (hfresh : ∀ line ∈ doc.lines, starts version.text line = false)
    (date : Line) : bodyFrom (sectionStart version.text) false (file version.text date doc.lines) =
      heading version.text date :: s.body := by
  have hheads : ∀ t ∈ doc.parts, starts version.text t.head = false := fun t ht => hfresh _ (Sections.mem_lines ht)
  rw [hparts] at hheads
  rw [file_lines, bodyFrom_plain _ doc.plain, if_neg Bool.false_ne_true, List.nil_append, bodyFrom_stretch, hparts,
    List.flatMap_append, flatMap_front hfront,
    Sections.stretch_append_of_neg (fun t ht => hheads t (List.mem_append_left _ ht)), List.flatMap_cons, filePart,
    if_pos hs, List.cons_append, List.singleton_append, Sections.stretch_cons_of_neg (starts_unreleased _),
    Sections.stretch_cons_of_pos ((starts_heading version version date).mpr rfl),
    leading_filed fun t ht => hheads t (List.mem_append_right _ (List.mem_cons_of_mem _ ht))]
  simp

lemma described_filed (hparts : doc.parts = front ++ s :: back) (hs : s.head = unreleased)
    (hfront : ∀ t ∈ front, t.head ≠ unreleased) (date : Line) :
    described (file version.text date doc.lines) = false := by
  unfold described
  rw [file_lines, describedFrom_plain doc.plain, Bool.false_and, Bool.false_or, describedFrom_stretch, hparts,
    List.flatMap_append, flatMap_front hfront,
    Sections.stretch_append_of_neg (p := (· = unreleased)) (fun t ht => decide_eq_false (hfront t ht)),
    List.flatMap_cons, filePart, if_pos hs, List.cons_append, List.singleton_append,
    Sections.stretch_cons_of_pos (p := (· = unreleased)) (decide_eq_true rfl),
    Sections.leading_cons_of_neg (p := (· = unreleased)) (decide_eq_false (heading_ne_unreleased _ _))]
  rfl

lemma described_split (hparts : doc.parts = front ++ s :: back) (hs : s.head = unreleased)
    (hfront : ∀ t ∈ front, t.head ≠ unreleased) (hback : ∀ t ∈ back, t.head ≠ unreleased) :
    described doc.lines = s.body.any hasField := by
  have hnone : Sections.leading (· = unreleased) back = [] := by
    cases back with
    | nil => rfl
    | cons t back =>
      exact Sections.leading_cons_of_neg (p := (· = unreleased)) (decide_eq_false (hback t List.mem_cons_self)) _
  unfold described Sections.lines
  rw [describedFrom_plain doc.plain, Bool.false_and, Bool.false_or, describedFrom_stretch, hparts,
    Sections.stretch_append_of_neg (p := (· = unreleased)) (fun t ht => decide_eq_false (hfront t ht)),
    Sections.stretch_cons_of_pos (p := (· = unreleased)) (decide_eq_true hs), hnone, List.any_cons, List.any_nil,
    Bool.or_false]

end

lemma sublist_file (version date : Line) (notes : List Line) :
    notes.Sublist (file version date notes) ∧
      (file version date notes).length = notes.length + 2 * notes.count unreleased := by
  induction notes with
  | nil => exact ⟨List.Sublist.slnil, rfl⟩
  | cons line notes ih =>
    rw [← List.singleton_append, file_append]
    have hfile : file version date [line] =
        if line = unreleased then [line, [], heading version date] else [line] := List.flatMap_singleton _ _
    rw [hfile]
    by_cases hline : line = unreleased
    · subst hline
      rw [if_pos rfl]
      refine ⟨(ih.1.cons _).cons _ |>.cons_cons _, ?_⟩
      simp only [List.length_append, List.length_cons, List.length_nil, ih.2, List.singleton_append,
        List.count_cons_self]
      omega
    · rw [if_neg hline]
      refine ⟨ih.1.cons_cons _, ?_⟩
      simp only [List.length_cons, ih.2, List.singleton_append, List.count_cons_of_ne hline]
      omega

lemma count_partLines (parts : List Part) :
    (Sections.partLines parts).count unreleased = parts.countP (fun t => t.head = unreleased) := by
  induction parts with
  | nil => rfl
  | cons t parts ih =>
    have hbody : t.body.count unreleased = 0 :=
      List.count_eq_zero.mpr (fun hmem => ne_unreleased_of_plain (t.plain _ hmem) rfl)
    rw [Sections.partLines_cons, List.count_cons, List.count_append, hbody, ih, List.countP_cons, Nat.zero_add]
    simp only [beq_iff_eq, decide_eq_true_eq]

/-- With one `## Unreleased`, the guard passes exactly the notes with something under it. -/
lemma described_iff {notes : List Line} (hone : notes.count unreleased = 1) :
    described notes = true ↔ ∃ line ∈ entries notes, hasField line = true := by
  have hthere : unreleased ∈ notes := List.count_pos_iff.mp (by omega)
  rw [← @Sections.lines_ofList _ isHeading notes] at hone hthere ⊢
  obtain ⟨front, s, back, hparts, hs, hfront⟩ := exists_unreleased hthere
  have hback : ∀ t ∈ back, t.head ≠ unreleased := by
    unfold Sections.lines at hone
    rw [List.count_append, count_partLines, hparts, List.countP_append,
      List.countP_cons_of_pos (p := fun t : Part => decide (t.head = unreleased)) (decide_eq_true hs)] at hone
    have hnone : back.countP (fun t : Part => decide (t.head = unreleased)) = 0 := by omega
    exact fun t ht => of_decide_eq_false (Bool.eq_false_iff.mpr (List.countP_eq_zero.mp hnone t ht))
  rw [described_split hparts hs hfront hback, entries_split hparts hs hfront, List.any_eq_true]

lemma filed_body (version : Version) (date : Line) {notes : List Line} (hthere : unreleased ∈ notes)
    (hfresh : ∀ line ∈ notes, starts version.text line = false) :
    bodyFrom (sectionStart version.text) false (file version.text date notes) =
      heading version.text date :: entries notes := by
  rw [← @Sections.lines_ofList _ isHeading notes] at hthere hfresh ⊢
  obtain ⟨front, s, back, hparts, hs, hfront⟩ := exists_unreleased hthere
  rw [bodyFrom_filed hparts hs hfront hfresh, entries_split hparts hs hfront]

lemma filed_described (version : Version) (date : Line) {notes : List Line} (hthere : unreleased ∈ notes) :
    described (file version.text date notes) = false := by
  rw [← @Sections.lines_ofList _ isHeading notes] at hthere ⊢
  obtain ⟨front, s, back, hparts, hs, hfront⟩ := exists_unreleased hthere
  exact described_filed hparts hs hfront date

/-- A release files the entries under its version, whole and in order, and nothing else: it leaves `## Unreleased`
empty and the other versions' sections as they are. -/
theorem filed_section (version : Version) (date : Line) {notes : List Line} (hthere : unreleased ∈ notes)
    (hfresh : ∀ line ∈ notes, starts version.text line = false) :
    bodyFrom (sectionStart version.text) false (file version.text date notes) =
        heading version.text date :: entries notes ∧
      described (file version.text date notes) = false ∧
      (notes.count unreleased = 1 → (described notes = true ↔ ∃ line ∈ entries notes, hasField line = true)) ∧
      (∀ other : Version, other.text ≠ version.text →
        annotation other.text (file version.text date notes) = annotation other.text notes) ∧
      notes.Sublist (file version.text date notes) ∧
      (file version.text date notes).length = notes.length + 2 * notes.count unreleased :=
  ⟨filed_body version date hthere hfresh, filed_described version date hthere, described_iff,
    fun _ hne => annotation_file version date hne notes, sublist_file _ _ _⟩

/-- A changelog with one entry to release and one version. -/
def plainNotes : List Line :=
  ["# Changes".toList, unreleased, [], "- one more".toList, [], "## 1.0.0 — then".toList, "- the first".toList]

def nextVersion : Version := ⟨"1.0.1".toList, by decide⟩

theorem filed_section_plain :
    bodyFrom (sectionStart nextVersion.text) false (file nextVersion.text "now".toList plainNotes) =
      ["## 1.0.1 — now".toList, [], "- one more".toList, []] :=
  (@filed_section nextVersion "now".toList plainNotes (by decide)
    (by simp only [plainNotes, List.forall_mem_cons, List.not_mem_nil, false_imp_iff, implies_true, and_true]; decide)).1

/-! ### Releases one after the other -/

/-- What the maintainers write under `## Unreleased`. -/
structure Entries where
  lines : List Line
  plain : ∀ line ∈ lines, isHeading line = false

/-- The notes with these lines under the first `## Unreleased`. -/
def write (e : Entries) (notes : List Line) : List Line :=
  match notes.dropWhile (· ≠ unreleased) with
  | [] => notes
  | _ :: rest => notes.takeWhile (· ≠ unreleased) ++ unreleased :: (e.lines ++ rest.dropWhile (!isHeading ·))

/-- A release: its entries when it was cut and the annotation of its tag. -/
structure Release where
  version : Version
  date : Line
  entries : List Line
  text : List Line

/-- The notes, the versions tagged, and the releases cut, the newest first. -/
structure Project where
  notes : List Line
  tags : List Line
  released : List Release

inductive Event
  | edit (e : Entries)
  | release (version : Version) (date : Line)

/-- A release is refused when its tag exists or there is nothing to release. -/
def Project.step (p : Project) : Event → Option Project
  | .edit e => some { p with notes := write e p.notes }
  | .release version date =>
    if version.text ∈ p.tags ∨ described p.notes = false then none
    else
      let notes := file version.text date p.notes
      some ⟨notes, version.text :: p.tags,
        ⟨version, date, entries p.notes, annotation version.text notes⟩ :: p.released⟩

/-- The release's section is in the notes as it was tagged: its heading and its entries. -/
structure Release.InNotes (r : Release) (notes : List Line) : Prop where
  text : r.text = (heading r.version.text r.date :: r.entries).rdropWhile (· = [])
  now : annotation r.version.text notes = r.text

structure Project.Kept (p : Project) : Prop where
  tagged : ∀ version : Version, version.text ∉ p.tags → ∀ line ∈ p.notes, starts version.text line = false
  released : ∀ r ∈ p.released, r.version.text ∈ p.tags ∧ r.InNotes p.notes
  distinct : (p.released.map (·.version.text)).Nodup

lemma mem_write {e : Entries} {notes : List Line} {line : Line} (h : line ∈ write e notes) :
    line ∈ notes ∨ line ∈ e.lines ∨ line = unreleased := by
  unfold write at h
  split at h
  · exact .inl h
  · next first rest hrest =>
    have hrest' : ∀ l ∈ rest, l ∈ notes := fun l hl =>
      (List.dropWhile_sublist _).subset (by rw [hrest]; exact List.mem_cons_of_mem _ hl)
    rcases List.mem_append.mp h with hbefore | h
    · exact .inl ((List.takeWhile_sublist _).subset hbefore)
    · rcases List.mem_cons.mp h with hline | h
      · exact .inr (.inr hline)
      · rcases List.mem_append.mp h with hentry | hafter
        · exact .inr (.inl hentry)
        · exact .inl (hrest' line ((List.dropWhile_sublist _).subset hafter))

lemma annotation_write (version : Version) (e : Entries) (notes : List Line) :
    annotation version.text (write e notes) = annotation version.text notes := by
  rw [← @Sections.lines_ofList _ isHeading notes]
  generalize (Sections.ofList notes : Doc) = doc
  by_cases hthere : unreleased ∈ doc.lines
  · obtain ⟨front, s, back, hparts, hs, hfront⟩ := exists_unreleased hthere
    have hwrite : write e doc.lines = doc.before ++
        Sections.partLines (front ++ ⟨unreleased, e.lines, isHeading_unreleased, e.plain⟩ :: back) := by
      have hall : ∀ line ∈ doc.before ++ Sections.partLines front, decide (line ≠ unreleased) = true := by
        intro line hline
        rcases List.mem_append.mp hline with hbefore | hline
        · exact decide_eq_true (ne_unreleased_of_plain (doc.plain line hbefore))
        · exact ne_unreleased_of_front hfront line hline
      have hbefore : doc.lines.takeWhile (· ≠ unreleased) = doc.before ++ Sections.partLines front := by
        rw [lines_split hparts, List.takeWhile_append_of_pos hall, hs, List.takeWhile_cons_of_neg (by simp),
          List.append_nil]
      have hafter : (s.body ++ Sections.partLines back).dropWhile (!isHeading ·) = Sections.partLines back := by
        rw [List.dropWhile_append_of_pos (fun line hline => by rw [s.plain line hline]; rfl)]
        cases back with
        | nil => rfl
        | cons t back =>
          exact List.dropWhile_cons_of_neg (by rw [t.marked]; exact Bool.false_ne_true)
      unfold write
      rw [dropWhile_split hparts hs hfront, hbefore]
      dsimp only
      rw [hafter, Sections.partLines_append, Sections.partLines_cons, List.append_assoc]
    have hagree : List.Forall₂ (Sections.Agree (starts version.text)) doc.parts
        (front ++ ⟨unreleased, e.lines, isHeading_unreleased, e.plain⟩ :: back) := by
      rw [hparts]
      refine List.rel_append (List.forall₂_same.mpr fun t _ => ⟨rfl, fun _ => rfl⟩)
        (List.Forall₂.cons ⟨hs, fun h => ?_⟩ (List.forall₂_same.mpr fun t _ => ⟨rfl, fun _ => rfl⟩))
      rw [hs, starts_unreleased] at h
      cases h
    rw [hwrite, annotation_lines _ _ doc.plain, Sections.stretch_forall₂ hagree, Sections.lines,
      annotation_lines _ _ doc.plain]
  · have hnone : doc.lines.dropWhile (· ≠ unreleased) = [] :=
      List.dropWhile_eq_nil_iff.mpr (fun line hline => decide_eq_true (fun h => hthere (h ▸ hline)))
    unfold write
    rw [hnone]

lemma Release.InNotes.congr {r : Release} {notes notes' : List Line} (h : r.InNotes notes)
    (hsame : annotation r.version.text notes' = annotation r.version.text notes) : r.InNotes notes' :=
  ⟨h.text, hsame.trans h.now⟩

lemma Project.Kept.edit {p : Project} (h : p.Kept) (e : Entries) : Project.Kept { p with notes := write e p.notes } := by
  refine ⟨fun version hnew line hline => ?_, fun r hr => ?_, h.distinct⟩
  · rcases mem_write hline with hold | hentry | rfl
    · exact h.tagged version hnew line hold
    · exact not_starts_of_plain (e.plain line hentry)
    · exact starts_unreleased _
  · obtain ⟨htag, hin⟩ := h.released r hr
    exact ⟨htag, hin.congr (annotation_write r.version e p.notes)⟩

lemma unreleased_of_described {notes : List Line} {f : Bool} (h : describedFrom f notes = true) :
    f = true ∨ unreleased ∈ notes := by
  induction notes generalizing f with
  | nil => cases h
  | cons line rest ih =>
    unfold describedFrom at h
    split at h
    · next hline => exact .inr (hline ▸ List.mem_cons_self)
    · cases f with
      | true => exact .inl rfl
      | false => exact (ih h).imp id (List.mem_cons_of_mem _)

lemma Project.Kept.release {p : Project} (h : p.Kept) {version : Version} (hnew : version.text ∉ p.tags)
    (hdescribed : described p.notes = true) (date : Line) :
    Project.Kept ⟨file version.text date p.notes, version.text :: p.tags,
      ⟨version, date, entries p.notes, annotation version.text (file version.text date p.notes)⟩ :: p.released⟩ := by
  have hthere : unreleased ∈ p.notes :=
    (unreleased_of_described hdescribed).resolve_left Bool.false_ne_true
  refine ⟨fun other hother line hline => ?_, fun r hr => ?_, ?_⟩
  · obtain ⟨hne, hold⟩ := not_or.mp (fun h => hother (List.mem_cons.mpr h))
    obtain ⟨l, hl, hmem⟩ := List.mem_flatMap.mp hline
    have hlold := h.tagged other hold l hl
    split at hmem
    · simp only [List.mem_cons, List.not_mem_nil, or_false] at hmem
      rcases hmem with rfl | rfl | rfl
      · exact hlold
      · exact not_starts_of_plain rfl
      · exact Bool.eq_false_iff.mpr (fun h => hne ((starts_heading version other date).mp h))
    · exact List.mem_singleton.mp hmem ▸ hlold
  · rcases List.mem_cons.mp hr with rfl | hr
    · refine ⟨List.mem_cons_self, ?_, rfl⟩
      exact congrArg (List.rdropWhile (· = []))
        (filed_body version date hthere (h.tagged version hnew))
    · obtain ⟨htag, hin⟩ := h.released r hr
      refine ⟨List.mem_cons_of_mem _ htag, hin.congr (annotation_file version date ?_ p.notes)⟩
      rintro hsame
      exact hnew (hsame ▸ htag)
  · rw [List.map_cons, List.nodup_cons]
    refine ⟨fun hmem => ?_, h.distinct⟩
    obtain ⟨r, hr, hsame⟩ := List.mem_map.mp hmem
    have htag := (h.released r hr).1
    rw [hsame] at htag
    exact hnew htag

lemma Project.Kept.step {p p' : Project} {e : Event} (h : p.Kept) (hstep : p.step e = some p') : p'.Kept := by
  cases e with
  | edit e =>
    obtain rfl := Option.some.inj hstep
    exact h.edit e
  | release version date =>
    unfold Project.step at hstep
    dsimp only at hstep
    split at hstep
    · cases hstep
    · next hrefused =>
      obtain rfl := Option.some.inj hstep
      obtain ⟨hnew, hdescribed⟩ := not_or.mp hrefused
      exact h.release hnew (by simpa using hdescribed) date

end SciForge.Tools.Notes
