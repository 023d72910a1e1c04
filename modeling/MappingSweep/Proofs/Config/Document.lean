import Mathlib.Data.List.Forall2
import MappingSweep.Config.Document
import MappingSweep.Proofs.Config.Tree
import MappingSweep.Proofs.Yaml.Value

/-!
# Trees from documents and back

A well-formed tree is the tree of its own document.
-/

namespace MappingSweep
namespace Config

open Yaml (Value)
open Keyed (keys)

variable {v : Value} {t : Config} {entries : List (Value × Value)} {es out : Entries}

theorem ofItems_eq_ok_iff {items : List Value} {ts : List Config} :
    ofItems items = .ok ts ↔ List.Forall₂ (fun v t => ofDocument v = .ok t) items ts := by
  induction items generalizing ts with
  | nil => cases ts <;> simp [ofItems]
  | cons v rest ih =>
    rw [ofItems]
    cases hfirst : ofDocument v with
    | error fault => cases ts <;> simp [bind, Except.bind, hfirst]
    | ok t =>
      cases hrest : ofItems rest with
      | error fault => cases ts <;> simp [bind, Except.bind, ← ih, hrest]
      | ok ts' => cases ts <;> simp [bind, Except.bind, pure, Except.pure, ← ih, hfirst, hrest]

/-- An entry of a mapping and the entry of a map that it is converted to. -/
def EntryConverts (e : Value × Value) (f : String × Config) : Prop :=
  keyText e.1 = .ok f.1 ∧ ofDocument e.2 = .ok f.2

theorem ofEntries_eq_ok_iff {acc : Entries} :
    ofEntries acc entries = .ok out ↔
      ∃ es, List.Forall₂ EntryConverts entries es ∧
        out = es.foldl (fun acc e => Keyed.insert e.1 e.2 acc) acc := by
  induction entries generalizing acc with
  | nil => simp [ofEntries, eq_comm]
  | cons e rest ih =>
    obtain ⟨k, v⟩ := e
    rw [ofEntries]
    constructor
    · intro h
      cases hkey : keyText k with
      | error fault => rw [hkey] at h; cases h
      | ok key =>
        cases hvalue : ofDocument v with
        | error fault => rw [hkey, hvalue] at h; cases h
        | ok t =>
          rw [hkey, hvalue] at h
          obtain ⟨es, hes, rfl⟩ := ih.mp h
          exact ⟨(key, t) :: es, .cons ⟨hkey, hvalue⟩ hes, rfl⟩
    · rintro ⟨es, hes, rfl⟩
      cases hes with
      | cons hentry hes =>
        rw [hentry.1, hentry.2]
        exact ih.mpr ⟨_, hes, rfl⟩

theorem ofDocument_sequence_eq_ok_iff {items : List Value} :
    ofDocument (.sequence items) = .ok t ↔
      ∃ ts, List.Forall₂ (fun v t => ofDocument v = .ok t) items ts ∧ t = .list ts := by
  simp only [ofDocument, ← ofItems_eq_ok_iff]
  cases ofItems items with
  | error fault => simp [Except.map]
  | ok ts => simp [Except.map, eq_comm]

theorem ofDocument_mapping_eq_ok_iff :
    ofDocument (.mapping entries) = .ok t ↔
      ∃ es, List.Forall₂ EntryConverts entries es ∧ t = mapOf es := by
  rw [ofDocument]
  constructor
  · intro h
    cases hentries : ofEntries [] entries with
    | error fault => rw [hentries] at h; cases h
    | ok out =>
      obtain ⟨es, hes, rfl⟩ := ofEntries_eq_ok_iff.mp hentries
      rw [hentries] at h
      exact ⟨es, hes, (Except.ok.inj h).symm⟩
  · rintro ⟨es, hes, rfl⟩
    rw [ofEntries_eq_ok_iff.mpr ⟨es, hes, rfl⟩]
    rfl

theorem toItems_eq (ts : List Config) : toItems ts = ts.map toDocument := by
  induction ts with
  | nil => rfl
  | cons t rest ih => rw [toItems, ih, List.map_cons]

theorem toEntries_eq (es : Entries) :
    toEntries es = es.map fun e => (.string e.1, e.2.toDocument) := by
  induction es with
  | nil => rfl
  | cons e rest ih =>
    obtain ⟨key, t⟩ := e
    rw [toEntries, ih, List.map_cons]

theorem ofDocument_toDocument (h : t.WellFormed) : ofDocument t.toDocument = .ok t := by
  induction h with
  | @scalar s fits =>
    cases s with
    | int n => simp only [toDocument, ofDocument, ofNumber, if_pos fits.2]
    | _ => simp only [toDocument, ofDocument, ofNumber]
  | @list items _ ih =>
    rw [toDocument, toItems_eq, ofDocument_sequence_eq_ok_iff]
    refine ⟨items, ?_, rfl⟩
    rw [List.forall₂_map_left_iff, List.forall₂_same]
    exact ih
  | @map es sorted _ ih =>
    rw [toDocument, toEntries_eq, ofDocument_mapping_eq_ok_iff]
    refine ⟨es, ?_, ?_⟩
    · rw [List.forall₂_map_left_iff, List.forall₂_same]
      exact fun e he => ⟨rfl, ih e he⟩
    · rw [mapOf, Keyed.ofList_of_sorted sorted]

end Config
end MappingSweep
