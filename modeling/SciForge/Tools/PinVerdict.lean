import SciForge.Tools.Pins
import SciForge.Tools.PinLines
import Mathlib.Algebra.Order.Ring.Int

/-!
# What the pin check passes

The versions the patterns read, the numeric order of floors, and the consumers the check passes.
-/

namespace SciForge.Tools.PinScan

/-! ### Versions in a text -/

/-- `[0-9]+`. -/
def Number (text : Line) : Prop := text ≠ [] ∧ ∀ c ∈ text, c.isDigit = true

/-- No digit is in front. -/
def Ends (text : Line) : Prop := text.head?.all (fun c => !c.isDigit) = true

lemma dropNumber_iff {text rest : Line} :
    dropNumber text = some rest ↔ ∃ n, Number n ∧ text = n ++ rest ∧ Ends rest := by
  constructor
  · intro h
    unfold dropNumber at h
    split at h
    · next hhead =>
      obtain rfl := Option.some.inj h
      refine ⟨text.takeWhile Char.isDigit, ⟨?_, fun c hc => List.mem_takeWhile_imp hc⟩,
        List.takeWhile_append_dropWhile.symm, ?_⟩
      · cases text with
        | nil => cases hhead
        | cons c text =>
          have hc : c.isDigit = true := hhead
          rw [List.takeWhile_cons_of_pos hc]
          exact List.cons_ne_nil _ _
      · have hnot := List.head?_dropWhile_not Char.isDigit text
        unfold Ends
        cases hdrop : text.dropWhile Char.isDigit with
        | nil => rfl
        | cons c rest => simpa [hdrop] using hnot
    · cases h
  · rintro ⟨n, ⟨hne, hn⟩, rfl, hrest⟩
    obtain ⟨c, n', rfl⟩ := List.exists_cons_of_ne_nil hne
    have hhead : ((c :: n') ++ rest).head?.any Char.isDigit = true := hn c List.mem_cons_self
    unfold dropNumber
    rw [if_pos hhead]
    exact congrArg some (dropWhile_of_all hn hrest)

/-- `v[0-9]+\.[0-9]+\.[0-9]+`. -/
def VersionText (text : Line) : Prop :=
  ∃ major minor patch, Number major ∧ Number minor ∧ Number patch ∧
    text = 'v' :: (major ++ '.' :: (minor ++ '.' :: patch))

lemma ends_dot (rest : Line) : Ends ('.' :: rest) := rfl

lemma dropPrefix_iff {word text rest : Line} : text.dropPrefix? word = some rest ↔ text = word ++ rest :=
  ⟨dropPrefix_append, fun h => h ▸ dropPrefix_of_append word rest⟩

lemma dropVersion_iff {text rest : Line} :
    dropVersion text = some rest ↔ ∃ version, VersionText version ∧ text = version ++ rest ∧ Ends rest := by
  unfold dropVersion
  simp only [Option.bind_eq_bind, Option.bind_eq_some_iff, dropPrefix_iff, dropNumber_iff]
  constructor
  · rintro ⟨_, rfl, _, ⟨n₁, h₁, rfl, -⟩, _, rfl, _, ⟨n₂, h₂, rfl, -⟩, _, rfl, n₃, h₃, rfl, hends⟩
    exact ⟨_, ⟨n₁, n₂, n₃, h₁, h₂, h₃, rfl⟩, by simp, hends⟩
  · rintro ⟨_, ⟨n₁, n₂, n₃, h₁, h₂, h₃, rfl⟩, rfl, hends⟩
    refine ⟨n₁ ++ '.' :: (n₂ ++ '.' :: (n₃ ++ rest)), ?_, '.' :: (n₂ ++ '.' :: (n₃ ++ rest)),
      ⟨n₁, h₁, rfl, ends_dot _⟩, n₂ ++ '.' :: (n₃ ++ rest), rfl, '.' :: (n₃ ++ rest), ⟨n₂, h₂, rfl, ends_dot _⟩,
      n₃ ++ rest, rfl, n₃, h₃, rfl, hends⟩
    simp

lemma isVersion_iff {text : Line} : isVersion text = true ↔ VersionText text := by
  have hread : isVersion text = true ↔ dropVersion text = some [] := beq_iff_eq
  rw [hread, dropVersion_iff]
  constructor
  · rintro ⟨version, h, rfl, -⟩
    rwa [List.append_nil]
  · exact fun h => ⟨text, h, (List.append_nil _).symm, rfl⟩

lemma versionHere_iff {text version : Line} :
    versionHere text = some version ↔ VersionText version ∧ ∃ rest, text = version ++ rest ∧ Ends rest := by
  have htake : ∀ version rest : Line, (version ++ rest).take ((version ++ rest).length - rest.length) = version := by
    intro version rest
    rw [List.length_append, Nat.add_sub_cancel, List.take_left]
  unfold versionHere
  rw [Option.map_eq_some_iff]
  constructor
  · rintro ⟨rest, hread, rfl⟩
    obtain ⟨version, hversion, rfl, hends⟩ := dropVersion_iff.mp hread
    rw [htake]
    exact ⟨hversion, rest, rfl, hends⟩
  · rintro ⟨hversion, rest, rfl, hends⟩
    exact ⟨rest, dropVersion_iff.mpr ⟨version, hversion, rfl, hends⟩, htake _ _⟩

/-! ### The lines read -/

lemma lastHere_isSome {α : Type} {here : Line → Option α} {line : Line} :
    (lastHere here line).isSome = true ↔ ∃ text, text <:+ line ∧ (here text).isSome = true := by
  unfold lastHere
  rw [Option.isSome_iff_ne_none, ne_eq, List.getLast?_eq_none_iff, List.filterMap_eq_nil_iff]
  simp only [List.mem_tails, not_forall, exists_prop, Option.isSome_iff_ne_none, ne_eq]

lemma versionText_no_colon {version : Line} (h : VersionText version) : ':' ∉ version := by
  obtain ⟨n₁, n₂, n₃, h₁, h₂, h₃, rfl⟩ := h
  have hdigits : ∀ {n : Line}, Number n → ':' ∉ n := fun hn hmem => absurd (hn.2 _ hmem) (by decide)
  simp only [List.mem_cons, List.mem_append, not_or]
  exact ⟨by decide, hdigits h₁, by decide, hdigits h₂, by decide, hdigits h₃⟩

lemma versionHere_readRest {line text version : Line} (htext : text <:+ line)
    (h : versionHere text = some version) : ∃ text', text' <:+ readRest line ∧ versionHere text' = some version := by
  unfold readRest
  split
  · next hcolon =>
    obtain ⟨hversion, rest, rfl, hends⟩ := versionHere_iff.mp h
    obtain ⟨before, rfl⟩ := htext
    cases hrest : rest.reverse with
    | nil =>
      rw [List.reverse_eq_nil_iff] at hrest
      subst hrest
      have hlast := hcolon.1
      rw [List.append_nil] at hlast
      have hne : version ≠ [] := by
        obtain ⟨n₁, n₂, n₃, -, -, -, rfl⟩ := hversion
        exact List.cons_ne_nil _ _
      rw [List.getLast?_append_of_ne_nil _ hne] at hlast
      exact absurd (List.mem_of_getLast? hlast) (versionText_no_colon hversion)
    | cons c more =>
      have hsplit : rest = more.reverse ++ [c] := by
        rw [← List.reverse_reverse rest, hrest, List.reverse_cons]
      refine ⟨version ++ more.reverse, ?_, versionHere_iff.mpr ⟨hversion, more.reverse, rfl, ?_⟩⟩
      · rw [hsplit, ← List.append_assoc, ← List.append_assoc, List.dropLast_concat, List.append_assoc]
        exact List.suffix_append _ _
      · rw [hsplit] at hends
        unfold Ends at hends ⊢
        cases hmore : more.reverse with
        | nil => rfl
        | cons d more' =>
          rw [hmore] at hends
          exact hends
  · exact ⟨text, htext, h⟩

lemma tagHere_version {text v : Line} (h : tagHere text = some v) : ∃ value, value <:+ text ∧ versionHere value = some v := by
  unfold tagHere at h
  simp only [Option.bind_eq_bind, Option.bind_eq_some_iff] at h
  obtain ⟨rest, hset, rest', htag, h⟩ := h
  split at h
  · refine ⟨_, ?_, h⟩
    have hrest : rest <:+ text := by
      rw [dropPrefix_iff.mp hset]
      exact List.suffix_append _ _
    have hrest' : rest' <:+ rest := by
      have hdrop : rest' <:+ rest.dropWhile isSpace := by
        rw [dropPrefix_iff.mp htag]
        exact List.suffix_append _ _
      exact hdrop.trans (List.dropWhile_suffix _)
    refine List.IsSuffix.trans ?_ ((List.dropWhile_suffix isSpace).trans (hrest'.trans hrest))
    cases hquote : (rest'.dropWhile isSpace).dropPrefix? ['\x22'] with
    | none => exact List.suffix_rfl
    | some value =>
      rw [Option.getD_some, dropPrefix_iff.mp hquote]
      exact List.suffix_append _ _
  · cases h

lemma isVersion_cmakeRef {line ref : Line} (h : cmakeRef line = some ref) : isVersion ref = true := by
  unfold cmakeRef at h
  split at h
  · next hsome =>
    obtain ⟨text, htext, hhere⟩ := lastHere_isSome.mp hsome
    obtain ⟨v, hv⟩ := Option.isSome_iff_exists.mp hhere
    obtain ⟨value, hvalue, hversion⟩ := tagHere_version hv
    obtain ⟨text', htext', hread⟩ := versionHere_readRest (hvalue.trans htext) hversion
    have hmem : v ∈ (readRest line).tails.filterMap versionHere :=
      List.mem_filterMap.mpr ⟨text', (List.mem_tails _ _).mpr htext', hread⟩
    obtain ⟨first, hfirst⟩ : ∃ first, ((readRest line).tails.filterMap versionHere).head? = some first := by
      cases hall : (readRest line).tails.filterMap versionHere with
      | nil =>
        rw [hall] at hmem
        exact absurd hmem List.not_mem_nil
      | cons first more => exact ⟨first, rfl⟩
    obtain ⟨text'', -, hfirst'⟩ := List.mem_filterMap.mp (List.mem_of_head? hfirst)
    rw [hfirst, Option.getD_some] at h
    obtain rfl := Option.some.inj h
    exact isVersion_iff.mpr (versionHere_iff.mp hfirst').1
  · cases h

/-! ### The records -/

/-- The text of the ref in a record of the checkout scan. -/
def Record.ref : Record → Line
  | .pinned version _ => version
  | .noRef _ => []
  | .otherRef _ value => value

lemma records_foldl (s : Scan) (lines : List Line) {r : Record} (h : r ∈ (lines.foldl Scan.read s).flush.records) :
    r ∈ s.records ∨ ∃ t : Scan, r = t.record := by
  have hflush : ∀ t : Scan, ∀ r ∈ t.flush.records, r ∈ t.records ∨ ∃ u : Scan, r = u.record := by
    intro t r hr
    unfold Scan.flush at hr
    dsimp only at hr
    split at hr
    · rcases List.mem_append.mp hr with hold | hnew
      · exact .inl hold
      · exact .inr ⟨t, List.mem_singleton.mp hnew⟩
    · exact .inl hr
  induction lines generalizing s with
  | nil => exact hflush s r h
  | cons line rest ih =>
    rcases ih (s.read line) h with hread | hnew
    · have hrecords : (s.read line).records = if opens line then
          ({ s with nr := s.nr + 1 } : Scan).flush.records else s.records := by
        unfold Scan.read
        cases opens line <;> cases mentions line <;> cases refText line <;> rfl
      rw [hrecords] at hread
      split at hread
      · exact hflush _ r hread
      · exact .inl hread
    · exact .inr hnew

lemma said_found {file : Line} {lines : List Line} {r : Record} (h : r ∈ scan lines) :
    (r.found file).said = pinOrUnpinned r.ref := by
  rcases records_foldl (.start 0) lines h with hnone | ⟨t, rfl⟩
  · exact absurd hnone List.not_mem_nil
  · unfold Scan.record
    split
    · next hversion => exact (if_pos hversion).symm
    · next hversion =>
      split
      · rfl
      · exact (if_neg hversion).symm

/-- A pattern of the script reads the reference: on a line of a workflow, for a checkout, or as the CMake tag. -/
inductive Consumer.Refers (repo : Consumer) : Line → Prop
  | uses (file : Line × List Line) (hfile : file ∈ repo.workflows) (line : Line) (hline : line ∈ file.2) (ref : Line)
      (href : usesRef line = some ref) : Refers repo ref
  | input (file : Line × List Line) (hfile : file ∈ repo.workflows) (line : Line) (hline : line ∈ file.2) (ref : Line)
      (href : inputRef line = some ref) : Refers repo ref
  | checkout (file : Line × List Line) (hfile : file ∈ repo.workflows) (r : Record) (hr : r ∈ PinScan.scan file.2) :
      Refers repo r.ref
  | tag (file : Line × List Line) (hfile : file ∈ repo.cmake) (line : Line) (hline : line ∈ file.2) (ref : Line)
      (href : cmakeRef line = some ref) : Refers repo ref

/-- The pyproject asks for sciforge-build from the floor on. -/
def Consumer.Requires (repo : Consumer) (floor : Line) : Prop :=
  ∃ file ∈ repo.pyproject, ∃ line ∈ file.2, floorRef line = some floor

lemma mem_scanLines {file : Line} {form : String} {ref : Line → Option Line} {said : Line → Said} {lines : List Line}
    {f : Found} (hf : f ∈ scanLines file form ref said lines) :
    ∃ line ∈ lines, ∃ text, ref line = some text ∧ said text = f.said := by
  obtain ⟨⟨line, n⟩, hentry, hfound⟩ := List.mem_filterMap.mp hf
  obtain ⟨text, htext, rfl⟩ := Option.map_eq_some_iff.mp hfound
  exact ⟨line, List.mem_of_getElem? (List.mem_zipIdx_iff_le_and_getElem?_sub.mp hentry).2, text, htext, rfl⟩

lemma mem_scanLines_of (file : Line) (form : String) (said : Line → Said) {ref : Line → Option Line} {lines : List Line}
    {line text : Line} (hline : line ∈ lines) (htext : ref line = some text) :
    ∃ f ∈ scanLines file form ref said lines, f.said = said text := by
  obtain ⟨n, hn, hget⟩ := List.getElem_of_mem hline
  refine ⟨_, List.mem_filterMap.mpr ⟨(line, n + 1), ?_, Option.map_eq_some_iff.mpr ⟨text, htext, rfl⟩⟩, rfl⟩
  refine List.mem_zipIdx_iff_le_and_getElem?_sub.mpr ⟨Nat.le_add_left _ _, ?_⟩
  simp [List.getElem?_eq_getElem hn, hget]

lemma mem_scan {repo : Consumer} {x : Said} : (∃ f ∈ repo.scan, f.said = x) ↔
    (∃ ref, repo.Refers ref ∧ pinOrUnpinned ref = x) ∨ ∃ floor, repo.Requires floor ∧ Said.floor floor = x := by
  unfold Consumer.scan
  constructor
  · rintro ⟨f, hf, rfl⟩
    simp only [List.mem_append, List.mem_flatMap, List.mem_map, Option.mem_toList] at hf
    rcases hf with (⟨file, hfile, (huses | hinput) | ⟨r, hr, rfl⟩⟩ | ⟨file, hfile, hfloor⟩) | ⟨file, hfile, htag⟩
    · obtain ⟨line, hline, ref, href, hsaid⟩ := mem_scanLines huses
      exact .inl ⟨ref, .uses file hfile line hline ref href, hsaid⟩
    · obtain ⟨line, hline, ref, href, hsaid⟩ := mem_scanLines hinput
      exact .inl ⟨ref, .input file hfile line hline ref href, hsaid⟩
    · exact .inl ⟨r.ref, .checkout file hfile r hr, (said_found hr).symm⟩
    · obtain ⟨line, hline, floor, href, hsaid⟩ := mem_scanLines hfloor
      exact .inr ⟨floor, ⟨file, hfile, line, hline, href⟩, hsaid⟩
    · obtain ⟨line, hline, ref, href, hsaid⟩ := mem_scanLines htag
      exact .inl ⟨ref, .tag file hfile line hline ref href, (if_pos (isVersion_cmakeRef href)).trans hsaid⟩
  · rintro (⟨_, href, rfl⟩ | ⟨floor, ⟨file, hfile, line, hline, href⟩, rfl⟩)
    · cases href with
      | uses file hfile line hline ref href =>
        obtain ⟨f, hf, hsaid⟩ :=
          mem_scanLines_of file.1 "uses" _ hline href
        exact ⟨f, List.mem_append_left _ (List.mem_append_left _ (List.mem_flatMap.mpr
          ⟨file, hfile, List.mem_append_left _ (List.mem_append_left _ hf)⟩)), hsaid⟩
      | input file hfile line hline ref href =>
        obtain ⟨f, hf, hsaid⟩ :=
          mem_scanLines_of file.1 "sciforge-ref" _ hline href
        exact ⟨f, List.mem_append_left _ (List.mem_append_left _ (List.mem_flatMap.mpr
          ⟨file, hfile, List.mem_append_left _ (List.mem_append_right _ hf)⟩)), hsaid⟩
      | checkout file hfile r hr =>
        exact ⟨r.found file.1, List.mem_append_left _ (List.mem_append_left _ (List.mem_flatMap.mpr
          ⟨file, hfile, List.mem_append_right _ (List.mem_map_of_mem hr)⟩)), said_found hr⟩
      | tag file hfile line hline ref href =>
        obtain ⟨f, hf, hsaid⟩ :=
          mem_scanLines_of file.1 "cmake" .pin hline href
        exact ⟨f, List.mem_append_right _ (List.mem_flatMap.mpr ⟨file, hfile, hf⟩),
          hsaid.trans (if_pos (isVersion_cmakeRef href)).symm⟩
    · obtain ⟨f, hf, hsaid⟩ :=
        mem_scanLines_of file.1 "FLOOR" .floor hline href
      exact ⟨f, List.mem_append_left _ (List.mem_append_right _ (List.mem_flatMap.mpr
        ⟨file, Option.mem_toList.mpr hfile, hf⟩)), hsaid⟩

/-! ### The verdict -/

lemma unpinned_iff (repo : Consumer) :
    repo.scan.filter Found.isUnpinned = [] ↔ ∀ ref, repo.Refers ref → isVersion ref = true := by
  rw [List.filter_eq_nil_iff]
  constructor
  · intro h ref href
    by_contra hversion
    obtain ⟨f, hf, hsaid⟩ := mem_scan.mpr (.inl ⟨ref, href, if_neg hversion⟩)
    refine h f hf ?_
    unfold Found.isUnpinned
    rw [hsaid]
  · intro h f hf hunpinned
    unfold Found.isUnpinned at hunpinned
    split at hunpinned
    · next ref hsaid =>
      rcases mem_scan.mp ⟨f, hf, hsaid⟩ with ⟨ref', href, hpin⟩ | ⟨floor, -, hfloor⟩
      · rw [pinOrUnpinned, if_pos (h ref' href)] at hpin
        cases hpin
      · cases hfloor
    · cases hunpinned

lemma mem_versions {repo : Consumer} {version : Line} :
    version ∈ ((repo.scan.filter (fun f => f.version.isSome)).filterMap Found.version).dedup ↔
      repo.Refers version ∧ isVersion version = true := by
  rw [List.mem_dedup, List.mem_filterMap]
  have hpin : ∀ f : Found, f.version = some version ↔ f.said = .pin version := by
    intro f
    unfold Found.version
    cases f.said <;> simp
  constructor
  · rintro ⟨f, hf, hversion⟩
    rcases mem_scan.mp ⟨f, (List.mem_filter.mp hf).1, (hpin f).mp hversion⟩ with ⟨ref, href, hsaid⟩ | ⟨floor, -, hfloor⟩
    · unfold pinOrUnpinned at hsaid
      split at hsaid
      · next hpinned =>
        obtain rfl := Said.pin.inj hsaid
        exact ⟨href, hpinned⟩
      · cases hsaid
    · cases hfloor
  · rintro ⟨href, hversion⟩
    obtain ⟨f, hf, hsaid⟩ := mem_scan.mpr (.inl ⟨version, href, if_pos hversion⟩)
    have hread := (hpin f).mpr hsaid
    exact ⟨f, List.mem_filter.mpr ⟨hf, by rw [hread]; rfl⟩, hread⟩

lemma above_iff (repo : Consumer) (version : Line) : repo.scan.find? (Found.isAbove version) = none ↔
    ∀ floor, repo.Requires floor → floorAbove floor version = false := by
  rw [List.find?_eq_none]
  constructor
  · intro h floor hfloor
    obtain ⟨f, hf, hsaid⟩ := mem_scan.mpr (.inr ⟨floor, hfloor, rfl⟩)
    have habove := h f hf
    unfold Found.isAbove at habove
    rw [hsaid] at habove
    exact Bool.eq_false_iff.mpr habove
  · intro h f hf habove
    unfold Found.isAbove at habove
    split at habove
    · next floor hsaid =>
      rcases mem_scan.mp ⟨f, hf, hsaid⟩ with ⟨ref, -, hpin⟩ | ⟨floor', hfloor, hsame⟩
      · unfold pinOrUnpinned at hpin
        split at hpin <;> cases hpin
      · obtain rfl := Said.floor.inj hsame
        rw [h floor' hfloor] at habove
        cases habove
    · cases habove

/-- The check passes a consumer without a reference, and one whose references are all one version that no floor is above
and that the SciForge checkout is at. -/
theorem passes_iff (repo : Consumer) (checkout : Checkout) : (check repo checkout).passes = true ↔
    (∀ ref, ¬repo.Refers ref) ∨ ∃ version, isVersion version = true ∧ (∀ ref, repo.Refers ref ↔ ref = version) ∧
      (∀ floor, repo.Requires floor → floorAbove floor (version.drop 1) = false) ∧
      checkout.sibling version = true := by
  unfold check
  dsimp only
  by_cases hall : ∀ ref, repo.Refers ref → isVersion ref = true
  · rw [if_neg (not_not.mpr ((unpinned_iff repo).mpr hall))]
    have hmem : ∀ version, version ∈
        ((repo.scan.filter (fun f => f.version.isSome)).filterMap Found.version).dedup ↔ repo.Refers version :=
      fun version => mem_versions.trans (and_iff_left_of_imp (hall version))
    have hnodup := List.nodup_dedup ((repo.scan.filter (fun f => f.version.isSome)).filterMap Found.version)
    generalize ((repo.scan.filter (fun f => f.version.isSome)).filterMap Found.version).dedup = versions at hmem hnodup
    match versions with
    | [] => exact iff_of_true rfl (.inl fun ref href => List.not_mem_nil ((hmem ref).mpr href))
    | [version] =>
      have hone : ∀ ref, repo.Refers ref ↔ ref = version := fun ref => (hmem ref).symm.trans List.mem_singleton
      have hthere := (hone version).mpr rfl
      dsimp only
      constructor
      · intro hpasses
        refine .inr ⟨version, hall version hthere, hone, (above_iff repo _).mp ?_, ?_⟩
        · cases hfind : repo.scan.find? (Found.isAbove (version.drop 1)) with
          | none => rfl
          | some record =>
            rw [hfind] at hpasses
            cases hpasses
        · cases hsibling : checkout.sibling version with
          | true => rfl
          | false =>
            rw [hsibling] at hpasses
            cases hfind : repo.scan.find? (Found.isAbove (version.drop 1)) <;> rw [hfind] at hpasses <;> cases hpasses
      · rintro (hnone | ⟨version', -, hone', hfloor, hsibling⟩)
        · exact absurd hthere (hnone version)
        · obtain rfl := (hone' version).mp hthere
          rw [(above_iff repo _).mpr hfloor, hsibling]
          rfl
    | first :: second :: rest =>
      refine iff_of_false Bool.false_ne_true ?_
      rintro (hnone | ⟨version, -, hone, -⟩)
      · exact hnone first ((hmem first).mp List.mem_cons_self)
      · have hfirst := (hone first).mp ((hmem first).mp List.mem_cons_self)
        have hsecond := (hone second).mp ((hmem second).mp (List.mem_cons_of_mem _ List.mem_cons_self))
        rw [hfirst, hsecond] at hnodup
        exact (List.nodup_cons.mp hnodup).1 List.mem_cons_self
  · rw [if_pos (fun hnil => hall ((unpinned_iff repo).mp hnil))]
    refine iff_of_false Bool.false_ne_true ?_
    push Not at hall
    obtain ⟨ref, href, hversion⟩ := hall
    rintro (hnone | ⟨version, hpinned, hone, -⟩)
    · exact hnone ref href
    · exact hversion ((hone ref).mp href ▸ hpinned)

/-! ### Floors -/

/-- A version as its numbers with dots in between. -/
def dotted (numbers : List ℕ) : Line := ['.'].intercalate (numbers.map fun n => (toString n).toList)

lemma splitOn_dotted {numbers : List ℕ} (h : numbers ≠ []) :
    (dotted numbers).splitOn '.' = numbers.map fun n => (toString n).toList := by
  refine List.splitOn_intercalate '.' (fun text htext => ?_) (by simpa using h)
  obtain ⟨n, -, rfl⟩ := List.mem_map.mp htext
  exact Release.dot_not_mem_toString n

lemma numeric_toString (n : ℕ) : numeric (toString n).toList = n := by
  rw [Nat.toString_eq_repr, Nat.toList_repr]
  have hdigit : ∀ c ∈ Nat.toDigits 10 n, c.isDigit = true :=
    fun c hc => Nat.isDigit_of_mem_toDigits (by decide) (by decide) hc
  obtain ⟨c, rest, hcons⟩ := List.exists_cons_of_ne_nil (Nat.toDigits_ne_nil (n := n) (b := 10))
  have hc : c.isDigit = true := hdigit c (by rw [hcons]; exact List.mem_cons_self)
  have hplain : c ≠ ' ' ∧ c ≠ '\t' ∧ c ≠ '-' := by
    refine ⟨?_, ?_, ?_⟩ <;> rintro rfl <;> revert hc <;> decide
  have hdrop : (Nat.toDigits 10 n).dropWhile (fun c => c = ' ' || c = '\t') = Nat.toDigits 10 n := by
    rw [hcons]
    exact List.dropWhile_cons_of_neg (by simp [hplain])
  have htake : (Nat.toDigits 10 n).takeWhile Char.isDigit = Nat.toDigits 10 n :=
    List.takeWhile_eq_self_iff.mpr hdigit
  unfold numeric
  rw [hdrop]
  split
  · next digits hdigits =>
    rw [hcons] at hdigits
    exact absurd (List.cons.inj hdigits).1 hplain.2.2
  · rw [htake, Nat.ofDigitChars_ten_toDigits]

/-- The three numbers compared. -/
def firstThree (numbers : List ℕ) : List ℕ := [0, 1, 2].map fun i => (numbers[i]?).getD 0

lemma sortKeys_dotted {numbers : List ℕ} (h : numbers ≠ []) :
    sortKeys (dotted numbers) = (firstThree numbers).map fun n : ℕ => (n : ℤ) := by
  unfold sortKeys firstThree
  rw [splitOn_dotted h, List.map_map]
  refine List.map_congr_left fun i _ => ?_
  rw [List.getElem?_map, Function.comp_apply]
  cases numbers[i]? with
  | none => rfl
  | some n => exact numeric_toString n

lemma dotted_singleton (n : ℕ) : dotted [n] = (toString n).toList := by simp [dotted]

lemma dotted_cons (n : ℕ) {rest : List ℕ} (h : rest ≠ []) :
    dotted (n :: rest) = (toString n).toList ++ '.' :: dotted rest := by
  obtain ⟨m, more, rfl⟩ := List.exists_cons_of_ne_nil h
  rfl

lemma dotted_injective {a b : List ℕ} (ha : a ≠ []) (hb : b ≠ []) (h : dotted a = dotted b) : a = b := by
  have hsplit := congrArg (List.splitOn '.') h
  rw [splitOn_dotted ha, splitOn_dotted hb] at hsplit
  exact List.map_injective_iff.mpr Release.toString_injective hsplit

lemma prefix_dotted {a : List ℕ} (ha : a ≠ []) (b : List ℕ) : dotted a <+: dotted (a ++ b) := by
  induction a with
  | nil => exact absurd rfl ha
  | cons n a ih =>
    by_cases hnil : a = []
    · subst hnil
      by_cases hb : b = []
      · subst hb
        exact List.prefix_rfl
      · rw [List.singleton_append, dotted_cons n hb, dotted_singleton]
        exact List.prefix_append _ _
    · rw [List.cons_append, dotted_cons n hnil, dotted_cons n (List.append_ne_nil_of_left_ne_nil hnil b)]
      exact (List.prefix_append_right_inj _).mpr ((List.prefix_cons_inj '.').mpr (ih hnil))

lemma dotted_le {a : List ℕ} (ha : a ≠ []) (b : List ℕ) : dotted a ≤ dotted (a ++ b) := by
  have hnot : ¬dotted (a ++ b) < dotted a := (prefix_dotted ha b).le
  exact not_lt.mp hnot

/-- `sort` goes by the three numbers, and by the texts where they are the same. -/
lemma sortsBefore_dotted {a b : List ℕ} (ha : a ≠ []) (hb : b ≠ []) : sortsBefore (dotted a) (dotted b) = true ↔
    firstThree a < firstThree b ∨ (firstThree a = firstThree b ∧ dotted a ≤ dotted b) := by
  have hlt : (firstThree a).map (fun n : ℕ => (n : ℤ)) < (firstThree b).map (fun n : ℕ => (n : ℤ)) ↔
      firstThree a < firstThree b := by
    simp [firstThree, List.cons_lt_cons_iff]
  have heq : (firstThree a).map (fun n : ℕ => (n : ℤ)) = (firstThree b).map (fun n : ℕ => (n : ℤ)) ↔
      firstThree a = firstThree b :=
    (List.map_injective_iff.mpr Int.ofNat_injective).eq_iff
  unfold sortsBefore
  rw [decide_eq_true_iff, sortKeys_dotted ha, sortKeys_dotted hb, hlt, heq]

/-- A floor is refused exactly when it is above the pinned version number by number; where one ends first, it is the
lower one. -/
theorem floorAbove_iff {floor : List ℕ} (hfloor : floor ≠ []) (major minor patch : ℕ) :
    floorAbove (dotted floor) (dotted [major, minor, patch]) = true ↔ [major, minor, patch] < floor := by
  have hversion : ([major, minor, patch] : List ℕ) ≠ [] := List.cons_ne_nil _ _
  have hthree : firstThree [major, minor, patch] = [major, minor, patch] := rfl
  have habove : floorAbove (dotted floor) (dotted [major, minor, patch]) = true ↔
      floor ≠ [major, minor, patch] ∧ ¬(firstThree floor < [major, minor, patch] ∨
        (firstThree floor = [major, minor, patch] ∧ dotted floor ≤ dotted [major, minor, patch])) := by
    unfold floorAbove
    rw [Bool.and_eq_true, decide_eq_true_iff, Bool.not_eq_true', Bool.eq_false_iff, ne_eq (sortsBefore _ _),
      sortsBefore_dotted hfloor hversion, hthree, ne_eq, ne_eq]
    exact and_congr_left' (not_congr ⟨dotted_injective hfloor hversion, congrArg dotted⟩)
  have hzeros : ∀ zeros, [major, minor, patch] = floor ++ zeros → dotted floor ≤ dotted [major, minor, patch] :=
    fun zeros h => h ▸ dotted_le hfloor zeros
  rw [habove]
  match floor with
  | [n₁] =>
    have hp : firstThree [n₁] = [n₁, 0, 0] := rfl
    rw [hp]
    by_cases heq : [n₁, 0, 0] = [major, minor, patch]
    · obtain ⟨rfl, rfl, rfl⟩ : n₁ = major ∧ 0 = minor ∧ 0 = patch := by simpa using heq
      simp [hzeros [0, 0] rfl]
    · have hne : ¬(n₁ = major ∧ 0 = minor ∧ 0 = patch) := by simpa using heq
      simp only [heq, false_and, or_false, List.cons_lt_cons_iff]
      simp
      omega
  | [n₁, n₂] =>
    have hp : firstThree [n₁, n₂] = [n₁, n₂, 0] := rfl
    rw [hp]
    by_cases heq : [n₁, n₂, 0] = [major, minor, patch]
    · obtain ⟨rfl, rfl, rfl⟩ : n₁ = major ∧ n₂ = minor ∧ 0 = patch := by simpa using heq
      simp [hzeros [0] rfl]
    · have hne : ¬(n₁ = major ∧ n₂ = minor ∧ 0 = patch) := by simpa using heq
      simp only [heq, false_and, or_false, List.cons_lt_cons_iff]
      simp
      omega
  | [n₁, n₂, n₃] =>
    have hp : firstThree [n₁, n₂, n₃] = [n₁, n₂, n₃] := rfl
    rw [hp]
    by_cases heq : [n₁, n₂, n₃] = [major, minor, patch]
    · simp [heq]
    · have hne : ¬(n₁ = major ∧ n₂ = minor ∧ n₃ = patch) := by simpa using heq
      simp only [heq, false_and, or_false, List.cons_lt_cons_iff]
      simp
      omega
  | n₁ :: n₂ :: n₃ :: n₄ :: rest =>
    have hp : firstThree (n₁ :: n₂ :: n₃ :: n₄ :: rest) = [n₁, n₂, n₃] := rfl
    rw [hp]
    by_cases heq : [n₁, n₂, n₃] = [major, minor, patch]
    · obtain ⟨rfl, rfl, rfl⟩ : n₁ = major ∧ n₂ = minor ∧ n₃ = patch := by simpa using heq
      have hlonger : ¬dotted (n₁ :: n₂ :: n₃ :: n₄ :: rest) ≤ dotted [n₁, n₂, n₃] := by
        intro hle
        have hsame := le_antisymm hle (dotted_le hversion (n₄ :: rest))
        simpa using dotted_injective hfloor hversion hsame
      simp [hlonger]
    · have hne : ¬(n₁ = major ∧ n₂ = minor ∧ n₃ = patch) := by simpa using heq
      simp only [heq, false_and, or_false, List.cons_lt_cons_iff]
      simp
      omega

theorem floorAbove_iff_short : floorAbove (dotted [1, 2]) (dotted [1, 0, 0]) = true :=
  (floorAbove_iff (List.cons_ne_nil 1 [2]) 1 0 0).mpr (by decide)

end SciForge.Tools.PinScan
