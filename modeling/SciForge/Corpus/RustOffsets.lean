import SciForge.Lib.Bytes
import SciForge.Corpus.RustToml

/-!
# Byte offsets as character offsets

The offset table is the inverse of the length of a prefix, so an entry is kept when all its offsets are
such lengths, and its spans are the prefixes' lengths in characters.
-/

namespace SciForge.Corpus

/-! ### What a rust entry says -/

/-- One match of an entry, in byte offsets: the whole span and the group spans, `none` for a group that
took no part. -/
structure RustMatch where
  whole : ℤ × ℤ
  groups : List (Option (ℤ × ℤ))

/-- The file's form of a span. -/
def tomlSpan (s : ℤ × ℤ) : Toml := .array [.int s.1, .int s.2]

/-- The file's form of a group: TOML has no null. -/
def tomlGroup : Option (ℤ × ℤ) → Toml
  | some s => tomlSpan s
  | none => .array []

/-- The forms of a match: its span alone when it has no group, or the list of all its spans. -/
inductive Writes : Toml → RustMatch → Prop
  | span (s : ℤ × ℤ) : Writes (tomlSpan s) ⟨s, []⟩
  | spans (m : RustMatch) : Writes (.array (tomlSpan m.whole :: m.groups.map tomlGroup)) m

/-- The matches of an entry; one without the key has none. -/
def EntryMatches (entry : Dict String Toml) (stated : List RustMatch) : Prop :=
  entry.get "matches" = none ∧ stated = [] ∨
    ∃ items, entry.get "matches" = some (.array items) ∧ List.Forall₂ Writes items stated

def EntryHaystack (entry : Dict String Toml) (haystack : List Char) : Prop :=
  entry.get "haystack" = some (.str haystack)

/-! ### What becomes of it -/

/-- The byte offset is the UTF-8 length of a prefix. -/
def PrefixLength (haystack : List Char) (byte : ℤ) : Prop := ∃ before, before <+: haystack ∧ byte = utf8Length before

/-- The pairs of a match, those of its groups that took part included. -/
def RustMatch.pairs (m : RustMatch) : List (ℤ × ℤ) := m.whole :: m.groups.filterMap id

def AllPrefixes (haystack : List Char) (stated : List RustMatch) : Prop :=
  ∀ m ∈ stated, ∀ p ∈ m.pairs, PrefixLength haystack p.1 ∧ PrefixLength haystack p.2

/-- The span a pair becomes: its ends are the prefixes of these lengths, and the bytes between them are the
text between them. -/
def PairConverted (haystack : List Char) (p : ℤ × ℤ) (span : Span) : Prop :=
  ∃ s e : ℕ, span = [(s : ℤ), (e : ℤ)] ∧ s ≤ haystack.length ∧ e ≤ haystack.length ∧
    p.1 = utf8Length (haystack.take s) ∧ p.2 = utf8Length (haystack.take e) ∧
    (p.1 ≤ p.2 → decodeUtf8 (((utf8 haystack).drop p.1.toNat).take (p.2 - p.1).toNat) =
      some ((haystack.take e).drop s))

/-- A group that is not written keeps its empty span. -/
def GroupConverted (haystack : List Char) : Option (ℤ × ℤ) → Span → Prop
  | some p, span => PairConverted haystack p span
  | none, span => span = []

def MatchConverted (haystack : List Char) (m : RustMatch) (expected : Observable) : Prop :=
  ∃ span groups, expected = matchDict span groups ∧ PairConverted haystack m.whole span ∧
    List.Forall₂ (GroupConverted haystack) m.groups groups

/-- An entry of the API we offer, with all its data. -/
structure StatesMatches (entry : Dict String Toml) (haystack : List Char) (stated : List RustMatch) : Prop where
  offered : outOfApi entry = false
  text : EntryHaystack entry haystack
  found : EntryMatches entry stated
  regex : (entry.get "regex").isSome

/-- An entry filtered before its matches are looked at. -/
def Foreign (entry : Dict String Toml) : Prop :=
  outOfApi entry = true ∨ ∀ haystack, ¬EntryHaystack entry haystack

/-- What an entry comes to: a case when all offsets are prefix lengths, else one more filtered. -/
structure EntryOutcome (entry : Dict String Toml) (outcome : Option (Case Toml PyStr)) : Prop where
  foreign : Foreign entry → outcome = none
  kept : ∀ haystack stated, StatesMatches entry haystack stated →
    (outcome.isSome ↔ AllPrefixes haystack stated)
  converted : ∀ haystack stated c, StatesMatches entry haystack stated → outcome = some c →
    c.input = haystack.map ord ∧ ∃ expected, c.expected = .list expected ∧
      List.Forall₂ (MatchConverted haystack) stated expected

/-! ### Bytes of a prefix -/

lemma length_utf8 (text : List Char) : (utf8 text).length = utf8Length text := by
  induction text with
  | nil => rfl
  | cons c text ih => rw [utf8_cons, List.length_append, ih, String.length_utf8EncodeChar, utf8Length_cons]

lemma prefixLength_iff {haystack : List Char} {byte : ℤ} :
    PrefixLength haystack byte ↔ ∃ i ≤ haystack.length, byte = utf8Length (haystack.take i) := by
  constructor
  · rintro ⟨before, hbefore, rfl⟩
    exact ⟨before.length, hbefore.length_le, by rw [← List.prefix_iff_eq_take.mp hbefore]⟩
  · rintro ⟨i, -, rfl⟩
    exact ⟨haystack.take i, List.take_prefix i haystack, rfl⟩

lemma decodeUtf8_slice (haystack : List Char) {s e : ℕ} (hs : s ≤ haystack.length)
    (h : utf8Length (haystack.take s) ≤ utf8Length (haystack.take e)) :
    decodeUtf8 (((utf8 haystack).drop (utf8Length (haystack.take s))).take
      (utf8Length (haystack.take e) - utf8Length (haystack.take s))) = some ((haystack.take e).drop s) := by
  have hle : s ≤ e := by
    by_contra hlt
    have hlonger := utf8Length_take_lt (Nat.lt_of_not_le hlt) hs
    omega
  have hbefore : haystack.take e = haystack.take s ++ (haystack.take e).drop s := by
    conv_lhs => rw [← List.take_append_drop s (haystack.take e), List.take_take, Nat.min_eq_left hle]
  have hsplit : utf8 haystack =
      utf8 (haystack.take s) ++ (utf8 ((haystack.take e).drop s) ++ utf8 (haystack.drop e)) := by
    rw [← List.append_assoc, ← utf8_append, ← hbefore, ← utf8_append, List.take_append_drop]
  have hlen : utf8Length (haystack.take e) - utf8Length (haystack.take s) =
      (utf8 ((haystack.take e).drop s)).length := by
    rw [← length_utf8, ← length_utf8]
    conv_lhs => rw [hbefore, utf8_append, List.length_append, Nat.add_sub_cancel_left]
  rw [decodeUtf8_eq_some, hlen, hsplit, ← length_utf8, List.drop_left, List.take_left]

/-! ### What the adapter makes of a match -/

/-- `offsets.get(byte)`. -/
def charIndex (haystack : List Char) (byte : ℤ) : Option ℕ :=
  if 0 ≤ byte then (charOffsets haystack).get byte.toNat else none

def pairSpan (haystack : List Char) (p : ℤ × ℤ) : Option Span :=
  (charIndex haystack p.1).bind (fun s => (charIndex haystack p.2).map (fun e : ℕ => [(s : ℤ), (e : ℤ)]))

def groupSpan (haystack : List Char) : Option (ℤ × ℤ) → Option Span
  | some p => pairSpan haystack p
  | none => some []

def matchOf (haystack : List Char) (m : RustMatch) : Option Observable :=
  (pairSpan haystack m.whole).bind (fun span => (m.groups.mapM (groupSpan haystack)).map (matchDict span))

lemma rustSpan_pair (haystack : List Char) (p : ℤ × ℤ) :
    rustSpan (charOffsets haystack) (tomlSpan p) = .ok (pairSpan haystack p) := by
  unfold rustSpan tomlSpan pairSpan
  rw [if_neg (by simp [Toml.truthy])]
  dsimp only
  rw [bind_eq_ok]
  refine ⟨charIndex haystack p.1, rfl, bind_eq_ok.mpr ⟨charIndex haystack p.2, rfl, ?_⟩⟩
  cases charIndex haystack p.1 <;> cases charIndex haystack p.2 <;> rfl

lemma rustSpan_group (haystack : List Char) (group : Option (ℤ × ℤ)) :
    rustSpan (charOffsets haystack) (tomlGroup group) = .ok (groupSpan haystack group) := by
  cases group with
  | none => rfl
  | some p => exact rustSpan_pair haystack p

lemma rustPairs_spans (m : RustMatch) :
    rustPairs (.array (tomlSpan m.whole :: m.groups.map tomlGroup)) =
      .ok (tomlSpan m.whole :: m.groups.map tomlGroup) := rfl

lemma mapM_rustSpan_spans (haystack : List Char) (m : RustMatch) :
    (tomlSpan m.whole :: m.groups.map tomlGroup).mapM (rustSpan (charOffsets haystack)) =
      .ok (pairSpan haystack m.whole :: m.groups.map (groupSpan haystack)) := by
  rw [mapM_eq_ok]
  refine .cons (rustSpan_pair haystack m.whole) ?_
  rw [List.forall₂_map_left_iff, List.forall₂_map_right_iff, List.forall₂_same]
  exact fun group _ => rustSpan_group haystack group

lemma rustMatch_eq {value : Toml} {m : RustMatch} (haystack : List Char) (hw : Writes value m) :
    rustMatch (charOffsets haystack) value = .ok (matchOf haystack m) := by
  have hspans : ∀ pairs, rustPairs value = .ok pairs → pairs.mapM (rustSpan (charOffsets haystack)) =
      .ok (pairSpan haystack m.whole :: m.groups.map (groupSpan haystack)) →
      rustMatch (charOffsets haystack) value = .ok (matchOf haystack m) := by
    intro pairs hpairs hmap
    unfold rustMatch matchOf
    rw [bind_eq_ok]
    refine ⟨pairs, hpairs, bind_eq_ok.mpr ⟨_, hmap, ?_⟩⟩
    have hgroups : (m.groups.map (groupSpan haystack)).mapM id = m.groups.mapM (groupSpan haystack) := List.mapM_map
    rw [List.mapM_cons, hgroups]
    cases pairSpan haystack m.whole with
    | none => rfl
    | some span =>
      generalize m.groups.mapM (groupSpan haystack) = groups
      cases groups <;> rfl
  cases hw with
  | span s => exact hspans [tomlSpan s] rfl (mapM_rustSpan_spans haystack ⟨s, []⟩)
  | spans m => exact hspans _ (rustPairs_spans m) (mapM_rustSpan_spans haystack m)

/-! ### What that is -/

lemma charIndex_eq_some {haystack : List Char} {byte : ℤ} {i : ℕ} :
    charIndex haystack byte = some i ↔ i ≤ haystack.length ∧ byte = utf8Length (haystack.take i) := by
  unfold charIndex
  split
  · rw [charOffsets_get]
    exact and_congr_right (fun _ => by omega)
  · constructor
    · intro h
      cases h
    · rintro ⟨-, rfl⟩
      omega

lemma isSome_charIndex {haystack : List Char} {byte : ℤ} :
    (charIndex haystack byte).isSome ↔ PrefixLength haystack byte := by
  rw [Option.isSome_iff_exists, prefixLength_iff]
  simp only [charIndex_eq_some]

lemma pairSpan_eq_some {haystack : List Char} {p : ℤ × ℤ} {span : Span} :
    pairSpan haystack p = some span ↔ PairConverted haystack p span := by
  simp only [pairSpan, Option.bind_eq_some_iff, Option.map_eq_some_iff, charIndex_eq_some]
  constructor
  · rintro ⟨s, ⟨hs, hstart⟩, e, ⟨he, hstop⟩, rfl⟩
    refine ⟨s, e, rfl, hs, he, hstart, hstop, fun hle => ?_⟩
    rw [hstart, hstop, Int.toNat_natCast, Int.toNat_sub]
    exact decodeUtf8_slice haystack hs (by omega)
  · rintro ⟨s, e, rfl, hs, he, hstart, hstop, -⟩
    exact ⟨s, ⟨hs, hstart⟩, e, ⟨he, hstop⟩, rfl⟩

lemma isSome_pairSpan {haystack : List Char} {p : ℤ × ℤ} :
    (pairSpan haystack p).isSome ↔ PrefixLength haystack p.1 ∧ PrefixLength haystack p.2 := by
  rw [← isSome_charIndex, ← isSome_charIndex, pairSpan]
  cases charIndex haystack p.1 <;> simp

lemma groupSpan_eq_some {haystack : List Char} {group : Option (ℤ × ℤ)} {span : Span} :
    groupSpan haystack group = some span ↔ GroupConverted haystack group span := by
  cases group with
  | none => simp [groupSpan, GroupConverted, eq_comm]
  | some p => exact pairSpan_eq_some

lemma matchOf_eq_some {haystack : List Char} {m : RustMatch} {expected : Observable} :
    matchOf haystack m = some expected ↔ MatchConverted haystack m expected := by
  simp only [matchOf, Option.bind_eq_some_iff, Option.map_eq_some_iff, pairSpan_eq_some, mapM_eq_some,
    groupSpan_eq_some]
  constructor
  · rintro ⟨span, hspan, groups, hgroups, rfl⟩
    exact ⟨span, groups, rfl, hspan, hgroups⟩
  · rintro ⟨span, groups, rfl, hspan, hgroups⟩
    exact ⟨span, hspan, groups, hgroups, rfl⟩

lemma isSome_matchOf {haystack : List Char} {m : RustMatch} :
    (matchOf haystack m).isSome ↔ ∀ p ∈ m.pairs, PrefixLength haystack p.1 ∧ PrefixLength haystack p.2 := by
  have hgroups : (m.groups.mapM (groupSpan haystack)).isSome ↔
      ∀ p ∈ m.groups.filterMap id, PrefixLength haystack p.1 ∧ PrefixLength haystack p.2 := by
    rw [isSome_mapM]
    constructor
    · intro h p hp
      obtain ⟨group, hgroup, rfl⟩ := List.mem_filterMap.mp hp
      exact isSome_pairSpan.mp (h _ hgroup)
    · intro h group hgroup
      cases group with
      | none => rfl
      | some p => exact isSome_pairSpan.mpr (h p (List.mem_filterMap.mpr ⟨_, hgroup, rfl⟩))
  rw [RustMatch.pairs, List.forall_mem_cons, ← isSome_pairSpan, ← hgroups, matchOf]
  cases pairSpan haystack m.whole <;> simp

/-! ### Entries -/

lemma rustEntry_foreign {entry : Dict String Toml} (h : Foreign entry) : rustEntry entry = .ok none := by
  unfold rustEntry
  rcases h with hout | htext
  · rw [hout]
  · split
    · next haystack _ hget => exact absurd hget (htext haystack)
    · rfl

lemma rustMatches_of_entryMatches {entry : Dict String Toml} {stated : List RustMatch}
    (h : EntryMatches entry stated) :
    ∃ items, rustMatches entry = .ok items ∧ List.Forall₂ Writes items stated := by
  rcases h with ⟨hnone, rfl⟩ | ⟨items, hitems, hw⟩
  · refine ⟨[], ?_, .nil⟩
    unfold rustMatches
    rw [hnone]
  · refine ⟨items, ?_, hw⟩
    unfold rustMatches
    rw [hitems]

lemma rustEntry_offered {entry : Dict String Toml} {haystack : List Char} {stated : List RustMatch}
    (hout : outOfApi entry = false) (htext : EntryHaystack entry haystack) (hfound : EntryMatches entry stated) :
    rustEntry entry = (stated.mapM (matchOf haystack)).elim (.ok none) (fun expected =>
      (subscript (entry.get "regex")).map (fun regex =>
        some ⟨regex, haystack.map ord, .list expected, rustFlags entry, "", none⟩)) := by
  obtain ⟨items, hitems, hw⟩ := rustMatches_of_entryMatches hfound
  have hmap : items.mapM (rustMatch (charOffsets haystack)) = .ok (stated.map (matchOf haystack)) := by
    rw [mapM_eq_ok, List.forall₂_map_right_iff]
    exact hw.imp (fun _ _ => rustMatch_eq haystack)
  have hstated : (stated.map (matchOf haystack)).mapM id = stated.mapM (matchOf haystack) := List.mapM_map
  have htext' : entry.get "haystack" = some (.str haystack) := htext
  unfold rustEntry
  rw [hout, htext']
  dsimp only
  rw [hitems, ok_bind, hmap, ok_bind, hstated]
  generalize stated.mapM (matchOf haystack) = expected
  cases expected with
  | none => rfl
  | some expected => cases subscript (entry.get "regex") <;> rfl

lemma rustEntry_stated {entry : Dict String Toml} {haystack : List Char} {stated : List RustMatch}
    (h : StatesMatches entry haystack stated) :
    ∃ regex, rustEntry entry = .ok ((stated.mapM (matchOf haystack)).map (fun expected =>
      ⟨regex, haystack.map ord, .list expected, rustFlags entry, "", none⟩)) := by
  obtain ⟨regex, hregex⟩ := Option.isSome_iff_exists.mp h.regex
  refine ⟨regex, ?_⟩
  rw [rustEntry_offered h.offered h.text h.found, hregex]
  cases stated.mapM (matchOf haystack) <;> rfl

lemma entryOutcome_stated {entry : Dict String Toml} {haystack : List Char} {stated : List RustMatch}
    (h : StatesMatches entry haystack stated) :
    ∃ outcome, rustEntry entry = .ok outcome ∧ EntryOutcome entry outcome := by
  obtain ⟨regex, hentry⟩ := rustEntry_stated h
  refine ⟨_, hentry, ?_, ?_, ?_⟩
  · rintro (hout | htext)
    · rw [h.offered] at hout
      cases hout
    · exact absurd h.text (htext haystack)
  · intro haystack' stated' h'
    obtain ⟨regex', hentry'⟩ := rustEntry_stated h'
    rw [Except.ok.inj (hentry.symm.trans hentry'), Option.isSome_map, isSome_mapM]
    exact forall₂_congr (fun m _ => isSome_matchOf)
  · intro haystack' stated' c h' hc
    obtain ⟨regex', hentry'⟩ := rustEntry_stated h'
    rw [Except.ok.inj (hentry.symm.trans hentry')] at hc
    obtain ⟨expected, hexpected, rfl⟩ := Option.map_eq_some_iff.mp hc
    exact ⟨rfl, expected, rfl, (mapM_eq_some.mp hexpected).imp (fun _ _ => matchOf_eq_some.mp)⟩

lemma entryOutcome_foreign {entry : Dict String Toml} (h : Foreign entry) : EntryOutcome entry none := by
  have hnot : ∀ haystack stated, ¬StatesMatches entry haystack stated := by
    intro haystack stated hstated
    rcases h with hout | htext
    · rw [hstated.offered] at hout
      cases hout
    · exact htext haystack hstated.text
  exact ⟨fun _ => rfl, fun haystack stated hs => absurd hs (hnot haystack stated),
    fun haystack stated _ hs => absurd hs (hnot haystack stated)⟩

/-! ### The file -/

lemma loadCasesRustToml_snoc {before : List (Dict String Toml)} {entry : Dict String Toml}
    {result : List (Case Toml PyStr) × ℕ} :
    loadCasesRustToml (before ++ [entry]) = .ok result ↔
      ∃ found outcome, loadCasesRustToml before = .ok found ∧ rustEntry entry = .ok outcome ∧
        result = (found.1 ++ outcome.toList, found.2 + if outcome.isNone then 1 else 0) := by
  unfold loadCasesRustToml
  rw [List.foldlM_append, bind_eq_ok]
  refine exists_congr (fun found => ?_)
  rw [List.foldlM_cons, exists_and_left]
  refine and_congr_right (fun _ => ?_)
  cases hentry : rustEntry entry with
  | error e => exact iff_of_false (fun h => nomatch h) (fun ⟨_, h, _⟩ => nomatch h)
  | ok outcome =>
    cases outcome with
    | none =>
      constructor
      · intro h
        exact ⟨none, rfl, by simpa using (Except.ok.inj h).symm⟩
      · rintro ⟨_, houtcome, rfl⟩
        obtain rfl := Except.ok.inj houtcome
        simp
        rfl
    | some c =>
      constructor
      · intro h
        exact ⟨some c, rfl, by simpa using (Except.ok.inj h).symm⟩
      · rintro ⟨_, houtcome, rfl⟩
        obtain rfl := Except.ok.inj houtcome
        simp
        rfl

/-- The loop collects the outcomes of its entries. -/
lemma loadCasesRustToml_outcomes {entries : List (Dict String Toml)} {outcomes : List (Option (Case Toml PyStr))}
    (h : List.Forall₂ (fun entry outcome => rustEntry entry = .ok outcome) entries outcomes)
    {before : List (Dict String Toml)} {cases : List (Case Toml PyStr)} {filtered : ℕ}
    (hbefore : loadCasesRustToml before = .ok (cases, filtered)) :
    loadCasesRustToml (before ++ entries) =
      .ok (cases ++ outcomes.filterMap id, filtered + outcomes.countP Option.isNone) := by
  induction h generalizing before cases filtered with
  | nil => simpa using hbefore
  | @cons entry outcome entries outcomes hentry _ ih =>
    have hsnoc := ih (loadCasesRustToml_snoc.mpr ⟨_, outcome, hbefore, hentry, rfl⟩)
    rw [List.append_assoc, List.singleton_append] at hsnoc
    rw [hsnoc]
    cases outcome with
    | none =>
      rw [List.filterMap_cons_none rfl, List.countP_cons_of_pos rfl]
      simp [Nat.add_assoc, Nat.add_comm]
    | some c =>
      have hcases : (some c :: outcomes).filterMap id = c :: outcomes.filterMap id := rfl
      rw [hcases, List.countP_cons_of_neg Bool.false_ne_true]
      simp

/-- Whatever the entries, no entry of a file that is read is lost. -/
theorem loadCasesRustToml_count {entries : List (Dict String Toml)} {cases : List (Case Toml PyStr)} {filtered : ℕ}
    (h : loadCasesRustToml entries = .ok (cases, filtered)) : cases.length + filtered = entries.length := by
  induction entries using List.reverseRecOn generalizing cases filtered with
  | nil =>
    obtain ⟨rfl, rfl⟩ := Prod.mk.inj (Except.ok.inj h)
    rfl
  | append_singleton before entry ih =>
    obtain ⟨found, outcome, hbefore, -, hresult⟩ := loadCasesRustToml_snoc.mp h
    obtain ⟨rfl, rfl⟩ := Prod.mk.inj hresult
    have hlen := ih hbefore
    rw [List.length_append, List.length_append, ← hlen]
    cases outcome with
    | none => simp; omega
    | some c => simp; omega

/-- Every file of entries that are filtered unseen or state matches is read: an entry is kept exactly when
all its offsets are prefix lengths, its spans are then the prefixes', and no entry is lost. -/
theorem loadCasesRustToml_offsets (entries : List (Dict String Toml))
    (h : ∀ entry ∈ entries, Foreign entry ∨ ∃ haystack stated, StatesMatches entry haystack stated) :
    ∃ outcomes, List.Forall₂ EntryOutcome entries outcomes ∧
      loadCasesRustToml entries = .ok (outcomes.filterMap id, outcomes.countP Option.isNone) ∧
      (outcomes.filterMap id).length + outcomes.countP Option.isNone = entries.length := by
  have hentry : ∀ entry ∈ entries, ∃ outcome, rustEntry entry = .ok outcome ∧ EntryOutcome entry outcome := by
    intro entry he
    rcases h entry he with hforeign | ⟨haystack, stated, hstated⟩
    · exact ⟨none, rustEntry_foreign hforeign, entryOutcome_foreign hforeign⟩
    · exact entryOutcome_stated hstated
  obtain ⟨outcomes, houtcomes⟩ := exists_forall₂.mpr hentry
  have hnone : loadCasesRustToml [] = .ok ([], 0) := rfl
  have hload := loadCasesRustToml_outcomes (houtcomes.imp (fun _ _ h => h.1)) hnone
  rw [List.nil_append, List.nil_append, Nat.zero_add] at hload
  exact ⟨outcomes, houtcomes.imp (fun _ _ h => h.2), hload, loadCasesRustToml_count hload⟩

/-- A two-byte haystack, matched whole and then inside its character. -/
def accentEntry (stop : ℤ) : Dict String Toml :=
  [("regex", .str ['.']), ("haystack", .str ['é']), ("matches", .array [tomlSpan (0, stop)])]

lemma accentEntry_states (stop : ℤ) : StatesMatches (accentEntry stop) ['é'] [⟨(0, stop), []⟩] :=
  ⟨rfl, rfl, .inr ⟨_, rfl, .cons (.span (0, stop)) .nil⟩, rfl⟩

theorem loadCasesRustToml_accent : ∃ outcomes, List.Forall₂ EntryOutcome [accentEntry 2, accentEntry 1] outcomes ∧
    loadCasesRustToml [accentEntry 2, accentEntry 1] =
      .ok (outcomes.filterMap id, outcomes.countP Option.isNone) ∧
    (outcomes.filterMap id).length + outcomes.countP Option.isNone = 2 := by
  refine loadCasesRustToml_offsets [accentEntry 2, accentEntry 1] (fun entry hentry => .inr ?_)
  rcases List.mem_cons.mp hentry with rfl | hentry
  · exact ⟨_, _, accentEntry_states 2⟩
  · obtain rfl := List.mem_singleton.mp hentry
    exact ⟨_, _, accentEntry_states 1⟩

end SciForge.Corpus
