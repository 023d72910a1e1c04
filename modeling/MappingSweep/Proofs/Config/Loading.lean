import MappingSweep.Proofs.Config.Document
import MappingSweep.Proofs.Yaml.Numbers

/-!
# What loading keeps of a document

A document without tags and with text for keys is written back with its entries in another order
and with the integers past the signed range rounded to floats.  A mapping of any document keeps all
its entries exactly where its keys have different texts.
-/

namespace MappingSweep

open Yaml (Value)

/-- The float next to an integer past the signed range, and any other number as it is. -/
def Yaml.Number.rounded : Yaml.Number → Yaml.Number
  | .int n => if n < Number.signedBound then .int n else .float (Float.ofInt n)
  | .float x => .float x

theorem Yaml.Number.rounded_eq_int_iff {m : Yaml.Number} {n : Int} :
    m.rounded = .int n ↔ m = .int n ∧ n < Number.signedBound := by
  cases m with
  | float x => simp [rounded]
  | int k =>
    by_cases hk : k < Number.signedBound
    · simpa [rounded, hk] using fun h : k = n => h ▸ hk
    · simpa [rounded, hk] using fun h : k = n => h ▸ Int.not_lt.mp hk

namespace Config

open Keyed (keys)

variable {v : Value} {t : Config}

theorem toDocument_ofNumber (n : Yaml.Number) :
    toDocument (.scalar (ofNumber n)) = .number n.rounded := by
  cases n with
  | float x => rfl
  | int n =>
    rw [ofNumber, Yaml.Number.rounded]
    split <;> rfl

/-- A mapping with text for keys. -/
def textMapping (entries : List (String × Value)) : Value :=
  .mapping (entries.map fun e => (.string e.1, e.2))

/-- A document without tags whose mappings have text for keys, each key once. -/
inductive Plain : Value → Prop
  | null : Plain .null
  | bool (b : Bool) : Plain (.bool b)
  | number (n : Yaml.Number) : Plain (.number n)
  | string (s : String) : Plain (.string s)
  | sequence {items : List Value} (parts : ∀ v ∈ items, Plain v) : Plain (.sequence items)
  | mapping {entries : List (String × Value)} (apart : (keys entries).Nodup)
      (contents : ∀ e ∈ entries, Plain e.2) : Plain (textMapping entries)

attribute [simp] Plain.null Plain.bool Plain.number Plain.string

@[simp] theorem plain_sequence_iff {items : List Value} :
    Plain (.sequence items) ↔ ∀ v ∈ items, Plain v :=
  ⟨fun h => by cases h; assumption, .sequence⟩

/-- What a plain document is converted to is written back as the document with rounded numbers. -/
theorem exists_ofDocument_of_plain (h : Plain v) :
    ∃ t, ofDocument v = .ok t ∧ (v.mapNumbers .rounded).Rearranged t.toDocument := by
  induction h with
  | null => exact ⟨_, rfl, .refl _⟩
  | bool b => exact ⟨_, rfl, .refl _⟩
  | number n => exact ⟨_, rfl, toDocument_ofNumber n ▸ .refl _⟩
  | string s => exact ⟨_, rfl, .refl _⟩
  | @sequence items _ ih =>
    obtain ⟨ts, hts⟩ := exists_forall₂ ih
    refine ⟨.list ts, ofDocument_sequence_eq_ok_iff.mpr ⟨ts, hts.imp fun _ _ h => h.1, rfl⟩, ?_⟩
    rw [Value.mapNumbers_sequence, toDocument, toItems_eq]
    refine .of_parts ?_
    rw [List.forall₂_map_left_iff, List.forall₂_map_right_iff]
    exact hts.imp fun _ _ h => h.2
  | @mapping entries apart _ ih =>
    -- each entry of the map beside the entry that it comes from, before the map sorts them
    obtain ⟨es, hes⟩ : ∃ es : Entries, List.Forall₂ (fun e f => e.1 = f.1 ∧
        ofDocument e.2 = .ok f.2 ∧ (e.2.mapNumbers .rounded).Rearranged f.2.toDocument)
        entries es := by
      refine exists_forall₂ fun e he => ?_
      obtain ⟨t, ht⟩ := ih e he
      exact ⟨(e.1, t), rfl, ht⟩
    have hkeys : keys entries = keys es := by
      rw [keys, keys, map_eq_map_iff]
      exact hes.imp fun _ _ h => h.1
    have hsorted : (Keyed.ofList es).Perm es := Keyed.ofList_perm (hkeys ▸ apart)
    refine ⟨mapOf es, ofDocument_mapping_eq_ok_iff.mpr ⟨es, ?_, rfl⟩, ?_⟩
    · rw [List.forall₂_map_left_iff]
      exact hes.imp fun _ _ h => ⟨congrArg Except.ok h.1, h.2.1⟩
    · rw [textMapping, Value.mapNumbers_mapping, mapOf, toDocument, toEntries_eq]
      refine .of_entries ?_ (hsorted.symm.map _)
      rw [List.map_map, List.forall₂_map_left_iff, List.forall₂_map_right_iff]
      exact hes.imp fun _ _ h => ⟨congrArg Value.string h.1, h.2.2⟩

/-- A plain document is converted, and what is written back is the document with the integers past
the signed range rounded.  It is the document itself, up to the order of entries, exactly when there
are no such integers. -/
theorem rearranged_iff_signed (h : Plain v) :
    ∃ t, ofDocument v = .ok t ∧ (v.mapNumbers .rounded).Rearranged t.toDocument ∧
      (v.Rearranged t.toDocument ↔ ∀ n : Int, .int n ∈ v.numbers → n < Number.signedBound) := by
  obtain ⟨t, hconvert, hrounded⟩ := exists_ofDocument_of_plain h
  refine ⟨t, hconvert, hrounded, fun hkept n hn => ?_, fun hsigned => ?_⟩
  · have hnumbers : v.numbers.Perm (v.numbers.map .rounded) := by
      rw [← Value.numbers_mapNumbers]
      exact hkept.numbers_perm.trans hrounded.numbers_perm.symm
    obtain ⟨m, -, hm⟩ := List.mem_map.mp (hnumbers.mem_iff.mp hn)
    exact (Yaml.Number.rounded_eq_int_iff.mp hm).2
  · have hself : v.mapNumbers .rounded = v := by
      refine Value.mapNumbers_eq_self fun m hm => ?_
      cases m with
      | float x => rfl
      | int n => exact Yaml.Number.rounded_eq_int_iff.mpr ⟨rfl, hsigned n hm⟩
    exact hself ▸ hrounded

/-- Numbers up to the ends of the signed range, below a list and a mapping. -/
def signedSample : Value :=
  textMapping [
    ("timing", .sequence [.number (.int 9223372036854775807),
      .number (.int (-9223372036854775808)), .number (.float 18446744073709551616.0)]),
    ("1", textMapping [("on", .bool true), ("", .null)])]

theorem plain_signedSample : Plain signedSample := by
  have hinner : Plain (textMapping [("on", .bool true), ("", .null)]) :=
    .mapping (by decide) (by simp)
  exact .mapping (by decide) (by simp [hinner])

theorem rearranged_iff_signed_signedSample :
    Plain signedSample ∧ ∃ t, ofDocument signedSample = .ok t ∧
      signedSample.Rearranged t.toDocument := by
  obtain ⟨t, hconvert, -, hkept⟩ := rearranged_iff_signed plain_signedSample
  have hsigned : ∀ m ∈ signedSample.numbers, m.rounded = m := by decide +kernel
  exact ⟨plain_signedSample, t, hconvert,
    hkept.mpr fun n hn => (Yaml.Number.rounded_eq_int_iff.mp (hsigned _ hn)).2⟩

/-- The largest unsigned integer is written back as a float. -/
theorem unsigned_not_kept :
    let v := textMapping [("a", .number (.int 18446744073709551615))]
    let t : Config := .map [("a", .scalar (.float 18446744073709551616.0))]
    Yaml.read "a: 18446744073709551615\n" = .ok v ∧ Plain v ∧ ofDocument v = .ok t ∧
      ¬ v.Rearranged t.toDocument := by
  intro v t
  have hnumber : ofNumber (.int 18446744073709551615) = .float 18446744073709551616.0 := by
    decide +kernel
  have hconvert : ofDocument v = .ok t := by
    simp [v, t, textMapping, ofDocument, ofEntries, keyText, hnumber, Keyed.insert, bind,
      Except.bind, Except.map]
  refine ⟨by decide +kernel, ?_, hconvert, fun hkept => ?_⟩
  · exact .mapping (by decide) (by simp)
  · exact absurd hkept.numbers_perm (by decide +kernel)

/-! ## Keys of one text -/

/-- In no mapping of the document have two keys the same text. -/
inductive KeysApart : Value → Prop
  | null : KeysApart .null
  | bool (b : Bool) : KeysApart (.bool b)
  | number (n : Yaml.Number) : KeysApart (.number n)
  | string (s : String) : KeysApart (.string s)
  | sequence {items : List Value} (parts : ∀ v ∈ items, KeysApart v) : KeysApart (.sequence items)
  | mapping {entries : List (Value × Value)} (apart : (entries.map fun e => keyText e.1).Nodup)
      (contents : ∀ e ∈ entries, KeysApart e.2) : KeysApart (.mapping entries)
  | tagged {tag : String} {v : Value} (h : KeysApart v) : KeysApart (.tagged tag v)

attribute [simp] KeysApart.null KeysApart.bool KeysApart.number KeysApart.string

@[simp] theorem keysApart_sequence_iff {items : List Value} :
    KeysApart (.sequence items) ↔ ∀ v ∈ items, KeysApart v :=
  ⟨fun h => by cases h; assumption, .sequence⟩

@[simp] theorem keysApart_tagged_iff {tag : String} {v : Value} :
    KeysApart (.tagged tag v) ↔ KeysApart v :=
  ⟨fun h => by cases h; assumption, .tagged⟩

theorem keysApart_mapping_iff {entries : List (Value × Value)} :
    KeysApart (.mapping entries) ↔
      (entries.map fun e => keyText e.1).Nodup ∧ ∀ e ∈ entries, KeysApart e.2 :=
  ⟨fun h => by cases h; constructor <;> assumption, fun h => .mapping h.1 h.2⟩

/-- Every mapping of the document has become a map with as many entries, where the text of each of
its keys has the conversion of what the key had. -/
inductive Kept : Value → Config → Prop
  | leaf {v : Value} {s : Scalar} (h : ofDocument v = .ok (.scalar s)) : Kept v (.scalar s)
  | list {items : List Value} {ts : List Config} (length : ts.length = items.length)
      (parts : ∀ {v t}, (v, t) ∈ items.zip ts → Kept v t) : Kept (.sequence items) (.list ts)
  | map {entries : List (Value × Value)} {es : Entries} (length : es.length = entries.length)
      (found : ∀ e ∈ entries, ∃ key t, keyText e.1 = .ok key ∧ Keyed.get? key es = some t ∧
        ofDocument e.2 = .ok t)
      (contents : ∀ e ∈ entries, ∀ {t}, ofDocument e.2 = .ok t → Kept e.2 t) :
      Kept (.mapping entries) (.map es)
  | tagged {tag : String} {v : Value} {t : Config} (h : Kept v t) : Kept (.tagged tag v) t

variable {entries : List (Value × Value)} {es : Entries}

theorem Kept.part {items : List Value} {ts : List Config} (h : Kept (.sequence items) (.list ts))
    (hpair : (v, t) ∈ items.zip ts) : Kept v t := by
  cases h with
  | list _ parts => exact parts hpair

theorem Kept.length_eq (h : Kept (.mapping entries) (.map es)) : es.length = entries.length := by
  cases h with
  | map length _ _ => exact length

theorem Kept.content (h : Kept (.mapping entries) (.map es)) {e : Value × Value} (he : e ∈ entries)
    (ht : ofDocument e.2 = .ok t) : Kept e.2 t := by
  cases h with
  | map _ _ contents => exact contents e he ht

theorem nodup_keyTexts_iff (h : List.Forall₂ EntryConverts entries es) :
    (entries.map fun e => keyText e.1).Nodup ↔ (keys es).Nodup := by
  have htexts : entries.map (fun e => keyText e.1) = (keys es).map .ok := by
    rw [keys, List.map_map, map_eq_map_iff]
    exact h.imp fun _ _ h => h.1
  rw [htexts, List.nodup_map_iff fun _ _ => Except.ok.inj]

/-- A map keeps the entries of its mapping when they have different keys in it. -/
theorem kept_mapOf_iff (h : List.Forall₂ EntryConverts entries es) :
    Kept (.mapping entries) (mapOf es) ↔
      (keys es).Nodup ∧ ∀ e ∈ entries, ∀ t, ofDocument e.2 = .ok t → Kept e.2 t := by
  constructor
  · intro hkept
    have hlength := hkept.length_eq.trans h.length_eq
    exact ⟨Keyed.length_ofList_eq_iff.mp hlength, fun e he t ht => hkept.content he ht⟩
  · rintro ⟨hkeys, hcontents⟩
    refine .map ?_ (fun e he => ?_) fun e he t ht => hcontents e he t ht
    · exact (Keyed.length_ofList_eq_iff.mpr hkeys).trans h.length_eq.symm
    · obtain ⟨f, hpair, hkey, hconvert⟩ := exists_right_of_mem h he
      have hmem : f ∈ Keyed.ofList es :=
        (Keyed.ofList_perm hkeys).mem_iff.mpr (List.of_mem_zip hpair).2
      have hfound := Keyed.get?_eq_some_of_mem (Keyed.sorted_ofList es).nodup_keys hmem
      exact ⟨f.1, f.2, hkey, hfound, hconvert⟩

/-- A converted document has all its entries exactly when in none of its mappings two keys have the
same text. -/
theorem kept_iff_keysApart (h : ofDocument v = .ok t) : Kept v t ↔ KeysApart v := by
  induction v using Value.induction generalizing t with
  | null => exact ⟨fun _ => .null, fun _ => by cases h; exact .leaf rfl⟩
  | bool b => exact ⟨fun _ => .bool b, fun _ => by cases h; exact .leaf rfl⟩
  | number n => exact ⟨fun _ => .number n, fun _ => by cases h; exact .leaf rfl⟩
  | string s => exact ⟨fun _ => .string s, fun _ => by cases h; exact .leaf rfl⟩
  | sequence items ih =>
    obtain ⟨ts, hts, rfl⟩ := ofDocument_sequence_eq_ok_iff.mp h
    rw [keysApart_sequence_iff]
    constructor
    · intro hkept v hv
      obtain ⟨t, hpair, hconvert⟩ := exists_right_of_mem hts hv
      exact (ih v hv hconvert).mp (hkept.part hpair)
    · intro hapart
      refine .list hts.length_eq.symm fun hpair => ?_
      have hv := (List.of_mem_zip hpair).1
      exact (ih _ hv (List.forall₂_zip hts hpair)).mpr (hapart _ hv)
  | mapping entries _ ih =>
    obtain ⟨es, hes, rfl⟩ := ofDocument_mapping_eq_ok_iff.mp h
    rw [kept_mapOf_iff hes, keysApart_mapping_iff, nodup_keyTexts_iff hes]
    refine and_congr_right fun _ => forall₂_congr fun e he => ?_
    obtain ⟨f, -, -, hconvert⟩ := exists_right_of_mem hes he
    exact ⟨fun hkept => (ih e he hconvert).mp (hkept _ hconvert),
      fun hapart t ht => (ih e he ht).mpr hapart⟩
  | tagged tag v ih =>
    have hv : ofDocument v = .ok t := h
    rw [keysApart_tagged_iff, ← ih hv]
    constructor
    · intro hkept
      cases hkept with
      | leaf _ => exact .leaf hv
      | tagged hkept => exact hkept
    · exact .tagged

/-- Keys that are all text are apart once they are distinct. -/
theorem Plain.keysApart (h : Plain v) : KeysApart v := by
  induction h with
  | null => exact .null
  | bool b => exact .bool b
  | number n => exact .number n
  | string s => exact .string s
  | sequence _ ih => exact .sequence ih
  | @mapping entries apart _ ih =>
    have htexts : (entries.map fun e => (Value.string e.1, e.2)).map (fun e => keyText e.1) =
        (keys entries).map .ok := by
      simp only [List.map_map]
      rfl
    refine .mapping ?_ (List.forall_mem_map.mpr ih)
    rw [htexts]
    exact apart.map fun _ _ => Except.ok.inj

/-- Keys of three kinds. -/
def mixedEntries : List (Value × Value) :=
  [(.bool true, .null), (.number (.float 1.0), .bool false), (.string "1", .number (.int 2))]

/-- Keys of three kinds, at two depths. -/
def mixedSample : Value :=
  .mapping [
    (.number (.int 1), .string "a"),
    (.string "true", .sequence [.mapping mixedEntries]),
    (.bool false, .tagged "!t" (.string "b"))]

theorem keysApart_mixedSample : KeysApart mixedSample := by
  have hinner : KeysApart (.mapping mixedEntries) :=
    .mapping (by decide +kernel) (by simp [mixedEntries])
  exact .mapping (by decide +kernel) (by simp [hinner])

theorem kept_iff_keysApart_mixedSample :
    ∃ t, ofDocument mixedSample = .ok t ∧ Kept mixedSample t := by
  have hloads : (ofDocument mixedSample).isOk = true := by decide +kernel
  cases hconvert : ofDocument mixedSample with
  | error reason => rw [hconvert] at hloads; cases hloads
  | ok t => exact ⟨t, rfl, (kept_iff_keysApart hconvert).mpr keysApart_mixedSample⟩

/-- An integer and its text are two keys, and the map that they become has one entry. -/
theorem entries_collapse :
    let v : Value := .mapping [(.number (.int 1), .string "a"), (.string "1", .string "b")]
    let t : Config := .map [("1", .str "b")]
    Yaml.read "1: a\n\"1\": b\n" = .ok v ∧
      Value.sameKey (.number (.int 1)) (.string "1") = false ∧ ofDocument v = .ok t ∧
      ¬ Kept v t := by
  intro v t
  have hkey : Yaml.Number.text (.int 1) = "1" := by decide +kernel
  have hconvert : ofDocument v = .ok t := by
    simp [v, t, ofDocument, ofEntries, keyText, hkey, Keyed.insert, bind, Except.bind, Except.map,
      str]
  exact ⟨by decide +kernel, rfl, hconvert, fun hkept => absurd hkept.length_eq (by decide)⟩

end Config
end MappingSweep
