import Mathlib.Data.List.Forall2
import MappingSweep.Proofs.Yaml.Value

/-!
# The numbers of a document

The numbers among the leaves of a document, and the document with each of them replaced.  Documents
that differ only in the order of the entries of mappings have the same numbers.
-/

namespace MappingSweep

section Forall₂

variable {α β γ : Type} {r : α → β → Prop} {xs : List α} {ys : List β}

theorem exists_forall₂ (h : ∀ x ∈ xs, ∃ y, r x y) : ∃ ys, List.Forall₂ r xs ys := by
  induction xs with
  | nil => exact ⟨[], .nil⟩
  | cons x xs ih =>
    obtain ⟨y, hy⟩ := h x List.mem_cons_self
    obtain ⟨ys, hys⟩ := ih fun x hx => h x (List.mem_cons_of_mem _ hx)
    exact ⟨y :: ys, .cons hy hys⟩

theorem exists_right_of_mem {x : α} (h : List.Forall₂ r xs ys) (hx : x ∈ xs) :
    ∃ y, (x, y) ∈ xs.zip ys ∧ r x y := by
  rw [← List.map_fst_zip (Nat.le_of_eq h.length_eq)] at hx
  obtain ⟨⟨x, y⟩, hpair, rfl⟩ := List.mem_map.mp hx
  exact ⟨y, hpair, List.forall₂_zip h hpair⟩

theorem map_eq_map_iff {f : α → γ} {g : β → γ} :
    xs.map f = ys.map g ↔ List.Forall₂ (fun x y => f x = g y) xs ys := by
  rw [← List.forall₂_eq_eq_eq, List.forall₂_map_left_iff, List.forall₂_map_right_iff]

theorem flatMap_perm {f : α → List γ} {g : β → List γ}
    (h : List.Forall₂ (fun x y => (f x).Perm (g y)) xs ys) :
    (xs.flatMap f).Perm (ys.flatMap g) := by
  induction h with
  | nil => exact .refl _
  | cons hfirst _ ih =>
    rw [List.flatMap_cons, List.flatMap_cons]
    exact hfirst.append ih

end Forall₂

namespace Yaml
namespace Value

mutual

/-- The numbers among the leaves, from first to last.  Those of keys do not count. -/
def numbers : Value → List Number
  | null | bool _ | string _ => []
  | number n => [n]
  | sequence items => numbersOfItems items
  | mapping entries => numbersOfEntries entries
  | tagged _ v => numbers v

def numbersOfItems : List Value → List Number
  | [] => []
  | v :: rest => numbers v ++ numbersOfItems rest

def numbersOfEntries : List (Value × Value) → List Number
  | [] => []
  | (_, v) :: rest => numbers v ++ numbersOfEntries rest

end

section MapNumbers

variable (f : Number → Number)

mutual

/-- The document with each number among the leaves replaced. -/
def mapNumbers : Value → Value
  | null => null
  | bool b => bool b
  | number n => number (f n)
  | string s => string s
  | sequence items => sequence (mapNumbersOfItems items)
  | mapping entries => mapping (mapNumbersOfEntries entries)
  | tagged tag v => tagged tag (mapNumbers v)

def mapNumbersOfItems : List Value → List Value
  | [] => []
  | v :: rest => mapNumbers v :: mapNumbersOfItems rest

def mapNumbersOfEntries : List (Value × Value) → List (Value × Value)
  | [] => []
  | (k, v) :: rest => (k, mapNumbers v) :: mapNumbersOfEntries rest

end

end MapNumbers

variable {v w : Value} {f : Number → Number}

@[simp] theorem numbers_sequence (items : List Value) :
    (sequence items).numbers = items.flatMap numbers := by
  rw [numbers]
  induction items with
  | nil => rfl
  | cons v rest ih => rw [numbersOfItems, ih, List.flatMap_cons]

@[simp] theorem numbers_mapping (entries : List (Value × Value)) :
    (mapping entries).numbers = entries.flatMap fun e => e.2.numbers := by
  rw [numbers]
  induction entries with
  | nil => rfl
  | cons e rest ih => rw [numbersOfEntries, ih, List.flatMap_cons]

@[simp] theorem mapNumbers_sequence (items : List Value) :
    (sequence items).mapNumbers f = sequence (items.map (mapNumbers f)) := by
  rw [mapNumbers]
  congr 1
  induction items with
  | nil => rfl
  | cons v rest ih => rw [mapNumbersOfItems, ih, List.map_cons]

@[simp] theorem mapNumbers_mapping (entries : List (Value × Value)) :
    (mapping entries).mapNumbers f = mapping (entries.map fun e => (e.1, e.2.mapNumbers f)) := by
  rw [mapNumbers]
  congr 1
  induction entries with
  | nil => rfl
  | cons e rest ih => rw [mapNumbersOfEntries, ih, List.map_cons]

theorem numbers_mapNumbers (v : Value) : (v.mapNumbers f).numbers = v.numbers.map f := by
  induction v using Value.induction with
  | null => rfl
  | bool b => rfl
  | number n => rfl
  | string s => rfl
  | sequence items ih =>
    simp only [mapNumbers_sequence, numbers_sequence, List.flatMap_map, List.map_flatMap]
    exact List.flatMap_congr ih
  | mapping entries _ ih =>
    simp only [mapNumbers_mapping, numbers_mapping, List.flatMap_map, List.map_flatMap]
    exact List.flatMap_congr ih
  | tagged tag v ih => exact ih

theorem mapNumbers_eq_self (h : ∀ n ∈ v.numbers, f n = n) : v.mapNumbers f = v := by
  induction v using Value.induction with
  | null => rfl
  | bool b => rfl
  | number n => rw [mapNumbers, h n (by simp [numbers])]
  | string s => rfl
  | sequence items ih =>
    rw [numbers_sequence] at h
    have hitems : ∀ v ∈ items, v.mapNumbers f = id v := fun v hv =>
      ih v hv fun n hn => h n (List.mem_flatMap_of_mem hv hn)
    rw [mapNumbers_sequence, List.map_congr_left hitems, List.map_id]
  | mapping entries _ ih =>
    rw [numbers_mapping] at h
    have hentries : ∀ e ∈ entries, (e.1, e.2.mapNumbers f) = id e := fun e he =>
      Prod.ext rfl (ih e he fun n hn => h n (List.mem_flatMap_of_mem he hn))
    rw [mapNumbers_mapping, List.map_congr_left hentries, List.map_id]
  | tagged tag v ih => exact congrArg (tagged tag) (ih h)

/-- The second document is the first one but for the order of the entries of mappings. -/
inductive Rearranged : Value → Value → Prop
  | refl (v : Value) : Rearranged v v
  | sequence {xs ys : List Value} (length : xs.length = ys.length)
      (parts : ∀ {x y}, (x, y) ∈ xs.zip ys → Rearranged x y) :
      Rearranged (.sequence xs) (.sequence ys)
  | mapping {es fs gs : List (Value × Value)} (keys : es.map Prod.fst = fs.map Prod.fst)
      (contents : ∀ {e f}, (e, f) ∈ es.zip fs → Rearranged e.2 f.2) (perm : fs.Perm gs) :
      Rearranged (.mapping es) (.mapping gs)

theorem Rearranged.of_parts {xs ys : List Value} (h : List.Forall₂ Rearranged xs ys) :
    Rearranged (.sequence xs) (.sequence ys) :=
  .sequence h.length_eq (List.forall₂_zip h)

theorem Rearranged.of_entries {es fs gs : List (Value × Value)}
    (h : List.Forall₂ (fun e f => e.1 = f.1 ∧ Rearranged e.2 f.2) es fs) (perm : fs.Perm gs) :
    Rearranged (.mapping es) (.mapping gs) := by
  refine .mapping ?_ (fun h' => (List.forall₂_zip h h').2) perm
  exact map_eq_map_iff.mpr (h.imp fun _ _ h => h.1)

theorem Rearranged.numbers_perm (h : Rearranged v w) : v.numbers.Perm w.numbers := by
  induction h with
  | refl v => exact .refl _
  | sequence length _ ih =>
    rw [numbers_sequence, numbers_sequence]
    exact flatMap_perm (List.forall₂_iff_zip.mpr ⟨length, ih⟩)
  | @mapping es fs gs keys _ perm ih =>
    have hlength : es.length = fs.length := by
      simpa only [List.length_map] using congrArg List.length keys
    rw [numbers_mapping, numbers_mapping]
    have hcontents := flatMap_perm (List.forall₂_iff_zip.mpr ⟨hlength, ih⟩)
    exact hcontents.trans (perm.flatMap_right _)

end Value
end Yaml
end MappingSweep
