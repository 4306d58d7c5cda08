import SciForge.Tools.Workflow
import Mathlib.Data.List.Infix

/-!
# What the checkout scan reads of a workflow

Words as YAML and the scan read them, the lines of keys and steps, and the scan cut at the steps of a file.
-/

namespace SciForge.Tools.PinScan

/-! ### Values -/

lemma uncomment_append (value : Line) :
    ∃ comment, value = uncomment value ++ comment ∧ comment.head?.all isSpace = true := by
  induction value with
  | nil => exact ⟨[], rfl, rfl⟩
  | cons c rest ih =>
    unfold uncomment
    split
    · next hcomment =>
      rw [Bool.and_eq_true] at hcomment
      exact ⟨c :: rest, rfl, hcomment.1⟩
    · obtain ⟨comment, hrest, hhead⟩ := ih
      exact ⟨comment, congrArg (c :: ·) hrest, hhead⟩

lemma head_of_uncomment {rest : Line} (h : (uncomment rest).all isSpace = true) : rest.head?.all isSpace = true := by
  cases rest with
  | nil => rfl
  | cons c rest =>
    unfold uncomment at h
    split at h
    · next hcomment =>
      rw [Bool.and_eq_true] at hcomment
      exact hcomment.1
    · rw [List.all_cons, Bool.and_eq_true] at h
      exact h.1

lemma quoted_append {quote : Char} {text content : Line} (h : quoted quote text = some content) :
    ∃ rest, text = content ++ quote :: rest ∧ rest.head?.all isSpace = true := by
  unfold quoted at h
  split at h
  · cases h
  · next c rest hrest =>
    split at h
    · next hcomment =>
      obtain rfl := Option.some.inj h
      have hc : c = quote := by
        have hhead := List.head?_dropWhile_not (· ≠ quote) text
        rw [hrest] at hhead
        simpa using hhead
      refine ⟨rest, ?_, head_of_uncomment (Bool.and_eq_true_iff.mp hcomment).1⟩
      rw [← hc, ← hrest, hc]
      exact List.takeWhile_append_dropWhile.symm
    · cases h

/-- A word: no blanks and no quotes. -/
def Word (text : Line) : Prop := text ≠ [] ∧ ∀ c ∈ text, isSpace c = false ∧ isQuote c = false

lemma dropWhile_of_all {p : Char → Bool} {text rest : Line} (htext : ∀ c ∈ text, p c = true)
    (hrest : rest.head?.all (fun c => !p c) = true) : (text ++ rest).dropWhile p = rest := by
  rw [List.dropWhile_append_of_pos htext]
  cases rest with
  | nil => rfl
  | cons c rest => exact List.dropWhile_cons_of_neg (by simpa using hrest)

lemma scalar_word {value text : Line} (h : scalar value = some text) (htext : Word text) :
    ∃ rest, rest.head?.all isSpace = true ∧ (value.dropWhile isSpace = text ++ rest ∨
      ∃ quote, isQuote quote = true ∧ value.dropWhile isSpace = quote :: (text ++ quote :: rest)) := by
  unfold scalar at h
  split at h
  · next hempty =>
    obtain rfl := Option.some.inj h
    exact absurd rfl htext.1
  · next c rest hrest =>
    split at h
    · next hquote =>
      obtain ⟨rest', hcontent, hhead⟩ := quoted_append h
      refine ⟨rest', hhead, .inr ⟨c, hquote, ?_⟩⟩
      rw [hrest, hcontent]
    split at h
    · cases h
    · obtain ⟨comment, hvalue, hhead⟩ := uncomment_append value
      have htrim : ((uncomment value).dropWhile isSpace).rdropWhile isSpace = text := Option.some.inj h
      have hword : (uncomment value).dropWhile isSpace =
          text ++ ((uncomment value).dropWhile isSpace).rtakeWhile isSpace := by
        rw [← htrim]
        exact List.rdropWhile_append_rtakeWhile.symm
      generalize hblanks : ((uncomment value).dropWhile isSpace).rtakeWhile isSpace = blanks at hword
      refine ⟨blanks ++ comment, ?_, .inl ?_⟩
      · cases blanks with
        | nil => exact hhead
        | cons b blanks =>
          have hb : isSpace b = true := List.mem_rtakeWhile_imp (by rw [hblanks]; exact List.mem_cons_self)
          simpa using hb
      · have hsplit : value = (uncomment value).takeWhile isSpace ++ (text ++ (blanks ++ comment)) := by
          conv_lhs => rw [hvalue, ← List.takeWhile_append_dropWhile (p := isSpace) (l := uncomment value), hword]
          simp only [List.append_assoc]
        conv_lhs => rw [hsplit]
        refine dropWhile_of_all (fun c hc => List.mem_takeWhile_imp hc) ?_
        cases text with
        | nil => exact absurd rfl htext.1
        | cons c text => simpa using (htext.2 c List.mem_cons_self).1

lemma takeWhile_of_all {p : Char → Bool} {text rest : Line} (htext : ∀ c ∈ text, p c = true)
    (hrest : rest.head?.all (fun c => !p c) = true) : (text ++ rest).takeWhile p = text := by
  rw [List.takeWhile_append_of_pos htext]
  cases rest with
  | nil => exact List.append_nil _
  | cons c rest =>
    rw [List.takeWhile_cons_of_neg (by simpa using hrest)]
    exact List.append_nil _

lemma not_quote_of_space {c : Char} (h : isSpace c = true) : isQuote c = false := by
  rw [Bool.eq_false_iff]
  intro hquote
  unfold isQuote at hquote
  rcases (Bool.or_eq_true _ _).mp hquote with hc | hc <;> rw [of_decide_eq_true hc] at h <;> revert h <;> decide

lemma refValue_word {value text : Line} (h : scalar value = some text) (htext : Word text) : refValue value = text := by
  obtain ⟨rest, hrest, hvalue⟩ := scalar_word h htext
  have hword : text.filter (!isQuote ·) = text := by
    rw [List.filter_eq_self]
    intro c hc
    rw [(htext.2 c hc).2]
    rfl
  have hend : (rest.filter (!isQuote ·)).head?.all (fun c => !!isSpace c) = true := by
    cases rest with
    | nil => rfl
    | cons c rest =>
      have hc : isSpace c = true := hrest
      rw [List.filter_cons_of_pos (by rw [not_quote_of_space hc]; rfl)]
      simpa using hc
  have hplain : ∀ c ∈ text, (!isSpace c) = true := fun c hc => by rw [(htext.2 c hc).1]; rfl
  unfold refValue
  rcases hvalue with hvalue | ⟨quote, hquote, hvalue⟩
  · rw [hvalue, List.filter_append, hword]
    exact takeWhile_of_all hplain hend
  · have hdrop : ∀ more : Line, (quote :: more).filter (!isQuote ·) = more.filter (!isQuote ·) :=
      fun more => List.filter_cons_of_neg (by rw [hquote]; exact Bool.false_ne_true)
    rw [hvalue, hdrop, List.filter_append, hdrop, hword]
    exact takeWhile_of_all hplain hend

lemma dropNumber_append {text rest : Line} (h : dropNumber text = some rest) :
    ∃ number, text = number ++ rest ∧ ∀ c ∈ number, c.isDigit = true := by
  unfold dropNumber at h
  split at h
  · obtain rfl := Option.some.inj h
    exact ⟨_, List.takeWhile_append_dropWhile.symm, fun c hc => List.mem_takeWhile_imp hc⟩
  · cases h

lemma dropPrefix_append {word text rest : Line} (h : text.dropPrefix? word = some rest) : text = word ++ rest := by
  obtain ⟨word', htext, hword⟩ := List.dropPrefix?_eq_some_iff.mp h
  rw [htext, eq_of_beq hword]

lemma plain_of_digit {c : Char} (h : c.isDigit = true) : isSpace c = false ∧ isQuote c = false := by
  have hlow : 48 ≤ c.val.toNat := by simpa [Char.isDigit, UInt32.le_iff_toNat_le] using (Bool.and_eq_true_iff.mp h).1
  constructor
  · rw [Bool.eq_false_iff]
    intro hspace
    rcases (Bool.or_eq_true _ _).mp hspace with hc | hc
    · rw [of_decide_eq_true hc] at hlow
      revert hlow
      decide
    · have hhigh := of_decide_eq_true (Bool.and_eq_true_iff.mp hc).2
      rw [UInt32.le_iff_toNat_le] at hhigh
      exact absurd (hlow.trans hhigh) (by decide)
  · rw [Bool.eq_false_iff]
    intro hquote
    rcases (Bool.or_eq_true _ _).mp hquote with hc | hc <;> rw [of_decide_eq_true hc] at hlow <;> revert hlow <;> decide

lemma word_of_version {text : Line} (h : isVersion text = true) : Word text := by
  unfold isVersion at h
  obtain ⟨major, hmajor, h₁⟩ := Option.bind_eq_some_iff.mp (eq_of_beq h)
  obtain ⟨rest₁, hrest₁, h₂⟩ := Option.bind_eq_some_iff.mp h₁
  obtain ⟨minor, hminor, h₃⟩ := Option.bind_eq_some_iff.mp h₂
  obtain ⟨rest₂, hrest₂, h₄⟩ := Option.bind_eq_some_iff.mp h₃
  obtain ⟨patch, hpatch, hend⟩ := Option.bind_eq_some_iff.mp h₄
  obtain ⟨n₁, rfl, hn₁⟩ := dropNumber_append hrest₁
  obtain ⟨n₂, rfl, hn₂⟩ := dropNumber_append hrest₂
  obtain ⟨n₃, rfl, hn₃⟩ := dropNumber_append hend
  obtain rfl := dropPrefix_append hpatch
  obtain rfl := dropPrefix_append hminor
  obtain rfl := dropPrefix_append hmajor
  refine ⟨List.cons_ne_nil _ _, fun c hc => ?_⟩
  simp only [List.mem_append, List.mem_singleton, List.not_mem_nil, or_false] at hc
  rcases hc with rfl | hc | rfl | hc | rfl | hc
  · decide
  · exact plain_of_digit (hn₁ c hc)
  · decide
  · exact plain_of_digit (hn₂ c hc)
  · decide
  · exact plain_of_digit (hn₃ c hc)

/-! ### Lines -/

lemma dropPrefix_of_append (word rest : Line) : (word ++ rest).dropPrefix? word = some rest :=
  List.dropPrefix?_append_of_beq rest (beq_self_eq_true word)

lemma mentions_of_scalar {e : Entry} (hkey : e.key = "repository".toList)
    (hscalar : scalar e.value = some "RECHE23/sciforge".toList) (before : Line) :
    mentions (before ++ e.text) = true := by
  have hall : "RECHE23/sciforge".toList.all (fun c => !isSpace c && !isQuote c) = true := by decide
  have hword : Word "RECHE23/sciforge".toList :=
    ⟨List.cons_ne_nil _ _, fun c hc => by simpa using List.all_eq_true.mp hall c hc⟩
  obtain ⟨rest, hrest, hvalue⟩ := scalar_word hscalar hword
  unfold mentions
  refine List.any_eq_true.mpr ⟨e.text, (List.mem_tails _ _).mpr (List.suffix_append before _), ?_⟩
  have htext : e.text = "repository:".toList ++ e.value := by
    unfold Entry.text
    rw [hkey]
    rfl
  unfold mentionsHere
  rw [htext, dropPrefix_of_append, Option.bind_some]
  have hdrop : ∀ {c : Char} {more : Line}, isQuote c = false → dropQuote (c :: more) = c :: more := by
    intro c more hc
    rw [dropQuote, hc, if_neg Bool.false_ne_true]
  rcases hvalue with hvalue | ⟨quote, hquote, hvalue⟩
  · have hkeep : dropQuote ("RECHE23/sciforge".toList ++ rest) = "RECHE23/sciforge".toList ++ rest :=
      hdrop (by decide)
    rw [hvalue, hkeep, dropPrefix_of_append, Option.any_some]
    cases rest with
    | nil => rfl
    | cons c rest =>
      rw [hdrop (not_quote_of_space hrest)]
      exact hrest
  · have hopen : ∀ more : Line, dropQuote (quote :: more) = more := by
      intro more
      rw [dropQuote, hquote, if_pos rfl]
    rw [hvalue, hopen, dropPrefix_of_append, Option.any_some, hopen]
    exact hrest

lemma Entry.plain_of_mem (e : Entry) {c : Char} (hc : c ∈ e.key) : isSpace c = false ∧ c ≠ ':' := by
  simpa using List.all_eq_true.mp (Bool.and_eq_true_iff.mp e.plain).1 c hc

lemma dropWhile_line (e : Entry) : e.line.dropWhile isSpace = e.text := by
  refine dropWhile_of_all (fun c hc => ?_) ?_
  · rw [List.eq_of_mem_replicate hc]
    decide
  · unfold Entry.text
    cases hkey : e.key with
    | nil => rfl
    | cons c key =>
      have hc := (e.plain_of_mem (by rw [hkey]; exact List.mem_cons_self)).1
      simpa using hc

lemma opens_line (e : Entry) : opens e.line = false := by
  unfold opens
  rw [dropWhile_line]
  split
  · next c rest htext =>
    unfold Entry.text at htext
    cases hkey : e.key with
    | nil =>
      rw [hkey] at htext
      cases htext
    | cons first key =>
      rw [hkey] at htext
      obtain ⟨-, htail⟩ := List.cons.inj htext
      cases key with
      | nil =>
        obtain ⟨rfl, -⟩ := List.cons.inj htail
        rfl
      | cons second key =>
        obtain ⟨rfl, -⟩ := List.cons.inj htail
        exact (e.plain_of_mem (by rw [hkey]; exact List.mem_cons_of_mem _ List.mem_cons_self)).1
  · rfl

lemma Row.opens_line (row : Row) : opens row.line = false := by
  cases row with
  | key e => exact PinScan.opens_line e
  | other line item => exact item

lemma refText_line (e : Entry) : refText e.line = if e.key = "ref".toList then some e.value else none := by
  unfold refText
  rw [dropWhile_line]
  split
  · next hkey =>
    unfold Entry.text
    rw [hkey]
    exact dropPrefix_of_append "ref:".toList e.value
  · next hkey =>
    rw [Option.eq_none_iff_forall_ne_some]
    intro rest hrest
    have hbegins : e.text = "ref:".toList ++ rest := dropPrefix_append hrest
    have htext : e.key ++ ':' :: e.value = "ref".toList ++ ':' :: rest := hbegins
    have hfirst : (e.key ++ ':' :: e.value).takeWhile (· ≠ ':') = e.key :=
      takeWhile_of_all (fun c hc => by simpa using (e.plain_of_mem hc).2) rfl
    rw [htext] at hfirst
    exact hkey (hfirst.symm.trans (takeWhile_of_all (List.all_eq_true.mp (by decide)) rfl))

lemma dropWhile_openingLine (s : Step) :
    s.openingLine.dropWhile isSpace = '-' :: ' ' :: (List.replicate s.gap ' ' ++ s.opening.text) := by
  refine dropWhile_of_all (fun c hc => ?_) rfl
  rw [List.eq_of_mem_replicate hc]
  decide

lemma opens_openingLine (s : Step) : opens s.openingLine = true := by
  unfold opens
  rw [dropWhile_openingLine]
  rfl

lemma refText_openingLine (s : Step) : refText s.openingLine = none := by
  unfold refText
  rw [dropWhile_openingLine, Option.eq_none_iff_forall_ne_some]
  intro rest hrest
  have htext := dropPrefix_append hrest
  cases htext

/-! ### Scanning a step -/

/-- What follows `ref:` on the lines that begin with it, the first line being line `n + 1`. -/
def refs (rows : List Row) (n : ℕ) : List (Line × ℕ) :=
  (rows.zipIdx (n + 1)).filterMap (fun row => (refText row.1.line).map (·, row.2))

lemma refs_cons (row : Row) (rest : List Row) (n : ℕ) :
    refs (row :: rest) n = ((refText row.line).map (·, n + 1)).toList ++ refs rest (n + 1) := by
  unfold refs
  rw [List.zipIdx_cons, List.filterMap_cons]
  cases refText row.line <;> rfl

namespace Scan

lemma read_row (s : Scan) (row : Row) :
    s.read row.line =
      { nr := s.nr + 1, repo := s.repo || mentions row.line
        repoLn := if mentions row.line then s.nr + 1 else s.repoLn
        refV := ((refText row.line).map refValue).getD s.refV
        refLn := if (refText row.line).isSome then s.nr + 1 else s.refLn
        records := s.records } := by
  unfold read
  rw [row.opens_line]
  cases refText row.line <;> cases mentions row.line <;> simp

/-- Over lines that open no step, the scan finds the repository and keeps the last ref. -/
lemma read_rows (rows : List Row) (s : Scan) :
    ((rows.map Row.line).foldl read s).nr = s.nr + rows.length ∧
    ((rows.map Row.line).foldl read s).records = s.records ∧
    ((rows.map Row.line).foldl read s).repo = (s.repo || rows.any (fun row => mentions row.line)) ∧
    ((rows.map Row.line).foldl read s).refV =
      ((refs rows s.nr).getLast?.map (fun ref => refValue ref.1)).getD s.refV ∧
    ((rows.map Row.line).foldl read s).refLn = ((refs rows s.nr).getLast?.map Prod.snd).getD s.refLn := by
  induction rows generalizing s with
  | nil => exact ⟨rfl, rfl, (Bool.or_false _).symm, rfl, rfl⟩
  | cons row rest ih =>
    obtain ⟨hnr, hrecords, hrepo, hvalue, hline⟩ := ih (s.read row.line)
    rw [List.map_cons, List.foldl_cons, hnr, hrecords, hrepo, hvalue, hline, read_row, refs_cons]
    refine ⟨?_, rfl, ?_, ?_⟩
    · rw [List.length_cons]
      dsimp only
      omega
    · rw [List.any_cons, Bool.or_assoc]
    · cases refText row.line with
      | none => exact ⟨rfl, rfl⟩
      | some text =>
        simp only [Option.map_some, Option.toList_some, List.singleton_append, List.getLast?_cons]
        cases (refs rest (s.nr + 1)).getLast? <;> exact ⟨rfl, rfl⟩

def prepend (records : List Record) (s : Scan) : Scan := { s with records := records ++ s.records }

lemma flush_prepend (records : List Record) (s : Scan) : (s.prepend records).flush = s.flush.prepend records := by
  unfold flush prepend
  cases hrepo : s.repo
  · simp
  · simp [record]

lemma read_prepend (records : List Record) (s : Scan) (line : Line) :
    (s.prepend records).read line = (s.read line).prepend records := by
  have hnext : { s.prepend records with nr := (s.prepend records).nr + 1 } =
      ({ s with nr := s.nr + 1 } : Scan).prepend records := rfl
  unfold read
  rw [hnext]
  dsimp only
  cases opens line with
  | false => cases mentions line <;> cases refText line <;> rfl
  | true =>
    simp only [if_true, flush_prepend]
    cases mentions line <;> cases refText line <;> rfl

lemma foldl_prepend (records : List Record) (s : Scan) (lines : List Line) :
    lines.foldl read (s.prepend records) = (lines.foldl read s).prepend records := by
  induction lines generalizing s with
  | nil => rfl
  | cons line rest ih => rw [List.foldl_cons, List.foldl_cons, read_prepend, ih]

lemma read_openingLine (s : Scan) (step : Step) :
    s.read step.openingLine =
      Scan.prepend s.flush.records { start (s.nr + 1) with
        repo := mentions step.openingLine
        repoLn := if mentions step.openingLine then s.nr + 1 else 0 } := by
  unfold read
  rw [opens_openingLine, refText_openingLine]
  cases hrepo : s.repo <;> cases mentions step.openingLine <;> simp [flush, prepend, start, hrepo, record]

lemma foldl_step (s : Scan) (step : Step) :
    step.lines.foldl read s = (step.lines.foldl read (start s.nr)).prepend s.flush.records := by
  have hstart : (start s.nr).read step.openingLine = { start (s.nr + 1) with
      repo := mentions step.openingLine
      repoLn := if mentions step.openingLine then s.nr + 1 else 0 } := by
    rw [read_openingLine]
    rfl
  unfold Step.lines
  rw [List.foldl_cons, List.foldl_cons, read_openingLine, foldl_prepend, hstart]

lemma nr_step (s : Scan) (step : Step) : ((step.lines.foldl read (start s.nr)).prepend s.flush.records).nr =
    s.nr + step.lines.length := by
  have hnr : (step.lines.foldl read (start s.nr)).nr = s.nr + step.lines.length := by
    unfold Step.lines
    rw [List.foldl_cons, (read_rows step.rest _).1, read_openingLine, List.length_cons, List.length_map]
    unfold prepend start
    dsimp only
    omega
  exact hnr

end Scan

/-! ### Scanning a file -/

/-- The scan from the step on, to the next one or the end of the file. -/
def Placed.scanned (x : Placed) : Scan :=
  ((x.step.lines ++ x.after.map Row.line).foldl Scan.read (.start x.before))

/-- A file's records: those of the lines before the first step, then those of each step and the lines after it. -/
lemma records_pieces (pieces : List Piece) (s : Scan) :
    ((pieces.flatMap Piece.lines).foldl Scan.read s).flush.records =
      (((rowsFirst pieces).map Row.line).foldl Scan.read s).flush.records ++
        (placed s.nr pieces).flatMap (fun x => x.scanned.flush.records) := by
  induction pieces generalizing s with
  | nil => exact (List.append_nil _).symm
  | cons piece rest ih =>
    rw [List.flatMap_cons, List.foldl_append, ih]
    cases piece with
    | outside row =>
      have hnr : (s.read row.line).nr = s.nr + 1 := by rw [Scan.read_row]
      have hrows : rowsFirst (.outside row :: rest) = row :: rowsFirst rest := rfl
      have hplaced : placed s.nr (.outside row :: rest) = placed (s.nr + 1) rest := rfl
      have hlines : (Piece.outside row).lines.foldl Scan.read s = s.read row.line := rfl
      rw [hlines, hrows, hplaced, List.map_cons, List.foldl_cons, hnr]
    | step step =>
      have hrows : rowsFirst (.step step :: rest) = [] := rfl
      have hplaced : placed s.nr (.step step :: rest) =
        ⟨s.nr, step, rowsFirst rest⟩ :: placed (s.nr + step.lines.length) rest := rfl
      have hlines : (Piece.step step).lines = step.lines := rfl
      rw [hlines, hrows, hplaced, Scan.foldl_step, Scan.nr_step, Scan.foldl_prepend, Scan.flush_prepend,
        List.flatMap_cons]
      unfold Placed.scanned
      rw [List.foldl_append, ← List.append_assoc]
      rfl

end SciForge.Tools.PinScan
