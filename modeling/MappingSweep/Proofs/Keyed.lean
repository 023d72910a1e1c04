import Mathlib.Data.List.Dedup
import Mathlib.Data.List.Induction
import MappingSweep.Keyed

/-!
# Entries in the order of their keys

Setting keys keeps entries sorted.  A list of entries therefore becomes the same list if its keys
are in order, a rearrangement of it if its keys are distinct, and a shorter list otherwise.
-/

namespace MappingSweep
namespace Keyed

open scoped List

variable {α : Type} {key k : String} {value v : α} {e : String × α} {es : Keyed α}

abbrev keys (es : Keyed α) : List String :=
  es.map Prod.fst

/-- Every key is less than the keys behind it. -/
def Sorted (es : Keyed α) : Prop :=
  es.Pairwise fun e f => e.1 < f.1

instance (es : Keyed α) : Decidable (Sorted es) :=
  inferInstanceAs (Decidable (es.Pairwise fun e f => e.1 < f.1))

theorem Sorted.nodup_keys (h : Sorted es) : (keys es).Nodup :=
  List.pairwise_map.mpr (h.imp String.ne_of_lt)

theorem mem_of_get?_eq_some (h : get? key es = some value) : (key, value) ∈ es := by
  induction es with
  | nil => cases h
  | cons e es ih =>
    obtain ⟨k, v⟩ := e
    rw [get?_cons] at h
    split at h
    · rename_i hkey
      cases h
      rw [hkey]
      exact List.mem_cons_self
    · exact List.mem_cons_of_mem _ (ih h)

theorem mem_keys_of_mem (h : e ∈ es) : e.1 ∈ keys es :=
  List.mem_map_of_mem h

theorem get?_eq_some_of_mem (hkeys : (keys es).Nodup) (h : (key, value) ∈ es) :
    get? key es = some value := by
  induction es with
  | nil => cases h
  | cons e es ih =>
    obtain ⟨k, v⟩ := e
    obtain ⟨hfresh, hkeys⟩ := List.nodup_cons.mp hkeys
    rw [get?_cons]
    rcases List.mem_cons.mp h with heq | hmem
    · cases heq
      rw [if_pos rfl]
    · have hkey : key ∈ keys es := mem_keys_of_mem hmem
      have hne : key ≠ k := fun heq => hfresh (heq ▸ hkey)
      rw [if_neg hne]
      exact ih hkeys hmem

theorem get?_eq_none_iff : get? key es = none ↔ key ∉ keys es := by
  induction es with
  | nil => simp
  | cons e es ih =>
    obtain ⟨k, v⟩ := e
    by_cases h : key = k <;> simp [h, ih]

theorem exists_get?_of_mem_keys (h : key ∈ keys es) : ∃ value, get? key es = some value :=
  Option.ne_none_iff_exists'.mp fun hnone => get?_eq_none_iff.mp hnone h

/-- Entries in order are known by what they hold under each key. -/
theorem Sorted.ext {es' : Keyed α} (hes : Sorted es) (hes' : Sorted es')
    (h : ∀ key, get? key es = get? key es') : es = es' := by
  have hmem : ∀ e, e ∈ es ↔ e ∈ es' := fun e =>
    ⟨fun he => mem_of_get?_eq_some ((h e.1).symm.trans (get?_eq_some_of_mem hes.nodup_keys he)),
      fun he => mem_of_get?_eq_some ((h e.1).trans (get?_eq_some_of_mem hes'.nodup_keys he))⟩
  have hperm : es.Perm es' :=
    (List.perm_ext_iff_of_nodup hes.nodup_keys.of_map hes'.nodup_keys.of_map).mpr hmem
  refine hperm.eq_of_pairwise (fun e f _ _ hef hfe => ?_) hes hes'
  exact absurd (String.lt_trans hef hfe) (String.lt_irrefl e.1)

theorem mem_insert (h : e ∈ insert key value es) : e = (key, value) ∨ e ∈ es := by
  induction es with
  | nil => exact .inl (List.mem_singleton.mp h)
  | cons f es ih =>
    obtain ⟨k, v⟩ := f
    unfold insert at h
    split at h
    · rename_i heq
      rcases List.mem_cons.mp h with rfl | h
      · exact .inl (by rw [heq])
      · exact .inr (List.mem_cons_of_mem _ h)
    · split at h
      · exact List.mem_cons.mp h
      · rcases List.mem_cons.mp h with rfl | h
        · exact .inr List.mem_cons_self
        · exact (ih h).imp_right (List.mem_cons_of_mem _)

theorem Sorted.insert (h : Sorted es) : Sorted (insert key value es) := by
  induction es with
  | nil => exact List.pairwise_singleton ..
  | cons f es ih =>
    obtain ⟨k, v⟩ := f
    obtain ⟨hfirst, hrest⟩ := List.pairwise_cons.mp h
    unfold Keyed.insert
    split
    · exact List.pairwise_cons.mpr ⟨hfirst, hrest⟩
    · rename_i hne
      split
      · rename_i hlt
        refine List.pairwise_cons.mpr ⟨fun e he => ?_, h⟩
        rcases List.mem_cons.mp he with rfl | he
        · exact hlt
        · exact String.lt_trans hlt (hfirst e he)
      · rename_i hle
        have hgt : k < key := Std.lt_of_le_of_ne (Std.not_lt.mp hle) (Ne.symm hne)
        refine List.pairwise_cons.mpr ⟨fun e he => ?_, ih hrest⟩
        rcases mem_insert he with rfl | he
        · exact hgt
        · exact hfirst e he

/-- A key greater than all others comes last. -/
theorem insert_of_forall_lt (h : ∀ e ∈ es, e.1 < key) :
    insert key value es = es ++ [(key, value)] := by
  induction es with
  | nil => rfl
  | cons f es ih =>
    obtain ⟨k, v⟩ := f
    have hlt : k < key := h (k, v) List.mem_cons_self
    unfold insert
    rw [if_neg (String.ne_of_lt hlt).symm, if_neg (Std.not_lt.mpr (Std.le_of_lt hlt)),
      ih fun e he => h e (List.mem_cons_of_mem _ he)]
    rfl

theorem insert_perm_of_not_mem (h : key ∉ keys es) :
    (insert key value es).Perm ((key, value) :: es) := by
  induction es with
  | nil => exact .refl _
  | cons f es ih =>
    obtain ⟨k, v⟩ := f
    rw [keys, List.map_cons, List.mem_cons, not_or] at h
    unfold insert
    rw [if_neg h.1]
    split
    · exact .refl _
    · exact ((ih h.2).cons _).trans (.swap ..)

theorem mem_keys_insert : k ∈ keys (insert key value es) ↔ k = key ∨ k ∈ keys es := by
  rw [← not_iff_not, not_or, ← get?_eq_none_iff, ← get?_eq_none_iff, get?_insert]
  by_cases h : k = key <;> simp [h]

@[simp] theorem ofList_concat (es : List (String × α)) (e : String × α) :
    ofList (es ++ [e]) = insert e.1 e.2 (ofList es) :=
  List.foldl_concat ..

theorem sorted_ofList (es : List (String × α)) : Sorted (ofList es) := by
  induction es using List.reverseRecOn with
  | nil => exact .nil
  | append_singleton es e ih =>
    rw [ofList_concat]
    exact ih.insert

theorem mem_keys_ofList {es : List (String × α)} : k ∈ keys (ofList es) ↔ k ∈ keys es := by
  induction es using List.reverseRecOn with
  | nil => rfl
  | append_singleton es e ih => simp [mem_keys_insert, ih, or_comm]

theorem forall_mem_ofList {p : α → Prop} {es : List (String × α)} (h : ∀ e ∈ es, p e.2) :
    ∀ e ∈ ofList es, p e.2 := by
  induction es using List.reverseRecOn with
  | nil => exact h
  | append_singleton es e ih =>
    intro f hf
    rw [ofList_concat] at hf
    rcases mem_insert hf with rfl | hf
    · exact h e (by simp)
    · exact ih (fun e he => h e (List.mem_append_left _ he)) f hf

theorem ofList_of_sorted (h : Sorted es) : ofList es = es := by
  induction es using List.reverseRecOn with
  | nil => rfl
  | append_singleton es e ih =>
    obtain ⟨hes, -, hlast⟩ := List.pairwise_append.mp h
    rw [ofList_concat, ih hes]
    exact insert_of_forall_lt fun f hf => hlast f hf e (List.mem_singleton_self e)

/-- With distinct keys only the order changes. -/
theorem ofList_perm (h : (keys es).Nodup) : (ofList es).Perm es := by
  induction es using List.reverseRecOn with
  | nil => exact .refl _
  | append_singleton es e ih =>
    rw [keys, List.map_append, List.nodup_append] at h
    obtain ⟨hes, -, hdisjoint⟩ := h
    have hfresh : e.1 ∉ keys (ofList es) := fun hmem =>
      hdisjoint _ (mem_keys_ofList.mp hmem) _ (List.mem_singleton_self _) rfl
    rw [ofList_concat]
    calc insert e.1 e.2 (ofList es)
      _ ~ e :: ofList es := insert_perm_of_not_mem hfresh
      _ ~ e :: es := (ih hes).cons e
      _ ~ es ++ [e] := (List.perm_append_singleton e es).symm

/-- As many entries are left as there are different keys. -/
theorem length_ofList (es : List (String × α)) :
    (ofList es).length = (keys es).dedup.length := by
  have hperm : (keys (ofList es)).Perm (keys es).dedup := by
    rw [List.perm_ext_iff_of_nodup (sorted_ofList es).nodup_keys (List.nodup_dedup _)]
    intro k
    rw [mem_keys_ofList, List.mem_dedup]
  rw [← hperm.length_eq, List.length_map]

theorem length_ofList_eq_iff : (ofList es).length = es.length ↔ (keys es).Nodup := by
  rw [length_ofList]
  constructor
  · intro h
    have heq : (keys es).dedup = keys es :=
      (List.dedup_sublist _).eq_of_length (by rw [h, List.length_map])
    rw [← heq]
    exact List.nodup_dedup _
  · intro h
    rw [h.dedup, List.length_map]

/-! ## The last entry under a key -/

/-- An element of a longer list is the last one, or was there before. -/
theorem concat_eq_split_iff {β : Type} {xs before after : List β} {x y : β} :
    xs ++ [x] = before ++ y :: after ↔
      (xs = before ∧ x = y ∧ after = []) ∨
        ∃ rest, xs = before ++ y :: rest ∧ after = rest ++ [x] := by
  constructor
  · intro heq
    rcases List.eq_nil_or_concat after with rfl | ⟨rest, last, rfl⟩
    · obtain ⟨hxs, hlast⟩ := List.append_inj' heq rfl
      exact .inl ⟨hxs, List.singleton_inj.mp hlast, rfl⟩
    · rw [List.concat_eq_append, ← List.cons_append, ← List.append_assoc] at heq
      obtain ⟨hxs, hlast⟩ := List.append_inj' heq rfl
      rw [List.concat_eq_append, List.singleton_inj.mp hlast]
      exact .inr ⟨rest, hxs, rfl⟩
  · rintro (⟨rfl, rfl, rfl⟩ | ⟨rest, rfl, rfl⟩)
    · rfl
    · rw [List.append_assoc, List.cons_append]

/-- Of the entries under the key the last one has the value. -/
def LastUnder (key : String) (value : α) (es : List (String × α)) : Prop :=
  ∃ before after, es = before ++ (key, value) :: after ∧ key ∉ keys after

theorem lastUnder_concat {es : List (String × α)} :
    LastUnder key value (es ++ [e]) ↔
      e = (key, value) ∨ e.1 ≠ key ∧ LastUnder key value es := by
  constructor
  · rintro ⟨before, after, heq, hafter⟩
    rcases concat_eq_split_iff.mp heq with ⟨-, hlast, -⟩ | ⟨rest, hes, rfl⟩
    · exact .inl hlast
    · rw [keys, List.map_append, List.mem_append, not_or] at hafter
      exact .inr ⟨fun h => hafter.2 (List.mem_singleton.mpr h.symm), before, rest, hes, hafter.1⟩
  · rintro (rfl | ⟨hne, before, after, rfl, hafter⟩)
    · exact ⟨es, [], rfl, List.not_mem_nil⟩
    · refine ⟨before, after ++ [e], by simp, ?_⟩
      rw [keys, List.map_append, List.mem_append, not_or]
      exact ⟨hafter, fun h => hne (List.mem_singleton.mp h).symm⟩

theorem LastUnder.mem_keys {es : List (String × α)} (h : LastUnder key value es) :
    key ∈ keys es := by
  obtain ⟨before, after, rfl, -⟩ := h
  simp

theorem lastUnder_iff_mem {es : List (String × α)} (h : (keys es).Nodup) :
    LastUnder key value es ↔ (key, value) ∈ es := by
  constructor
  · rintro ⟨before, after, rfl, -⟩
    simp
  · intro hmem
    obtain ⟨before, after, rfl⟩ := List.append_of_mem hmem
    rw [keys, List.map_append, List.map_cons, List.nodup_append, List.nodup_cons] at h
    exact ⟨before, after, rfl, h.2.1.1⟩

section Related

variable {β : Type} (related : β → α → Prop) {es : List (String × α)} {fs : List (String × β)}

theorem keys_eq_of_forall₂ (h : List.Forall₂ (fun f e => f.1 = e.1 ∧ related f.2 e.2) fs es) :
    keys fs = keys es := by
  rw [← List.forall₂_eq_eq_eq, List.forall₂_map_left_iff, List.forall₂_map_right_iff]
  exact h.imp fun _ _ hpair => hpair.1

/-- The last one under a key stays so when values are replaced by related ones. -/
theorem LastUnder.of_forall₂ (hlast : LastUnder key value es)
    (h : List.Forall₂ (fun f e => f.1 = e.1 ∧ related f.2 e.2) fs es) :
    ∃ v, LastUnder key v fs ∧ related v value := by
  obtain ⟨before, after, rfl, hafter⟩ := hlast
  induction before generalizing fs with
  | nil =>
    rw [List.nil_append] at h
    obtain ⟨⟨k, v⟩, rest, ⟨rfl, hv⟩, hrest, rfl⟩ := List.forall₂_cons_right_iff.mp h
    exact ⟨v, ⟨[], rest, rfl, keys_eq_of_forall₂ related hrest ▸ hafter⟩, hv⟩
  | cons first before ih =>
    rw [List.cons_append] at h
    obtain ⟨f, rest, -, hrest, rfl⟩ := List.forall₂_cons_right_iff.mp h
    obtain ⟨v, ⟨before, after, rfl, hafter⟩, hv⟩ := ih hrest
    exact ⟨v, ⟨f :: before, after, rfl, hafter⟩, hv⟩

end Related

/-- Of equal keys the last one counts. -/
theorem get?_ofList_eq_some_iff {es : List (String × α)} :
    get? key (ofList es) = some value ↔ LastUnder key value es := by
  induction es using List.reverseRecOn with
  | nil => simp [ofList, LastUnder]
  | append_singleton es e ih =>
    rw [ofList_concat, get?_insert, lastUnder_concat]
    obtain ⟨k, v⟩ := e
    by_cases hkey : key = k
    · subst hkey
      simp
    · simp [hkey, Ne.symm hkey, ih]

theorem get?_ofList_eq_none_iff {es : List (String × α)} :
    get? key (ofList es) = none ↔ key ∉ keys es := by
  rw [get?_eq_none_iff, mem_keys_ofList]

theorem exists_lastUnder_iff {es : List (String × α)} :
    (∃ value, LastUnder key value es) ↔ key ∈ keys es := by
  refine ⟨fun ⟨value, h⟩ => h.mem_keys, fun h => ?_⟩
  obtain ⟨value, hvalue⟩ := exists_get?_of_mem_keys (mem_keys_ofList.mpr h)
  exact ⟨value, get?_ofList_eq_some_iff.mp hvalue⟩

/-- What stands further behind counts more. -/
theorem get?_ofList_append (es fs : List (String × α)) :
    get? key (ofList (es ++ fs)) = (get? key (ofList fs)).or (get? key (ofList es)) := by
  induction fs using List.reverseRecOn with
  | nil => rw [List.append_nil]; rfl
  | append_singleton fs f ih =>
    rw [← List.append_assoc, ofList_concat, ofList_concat, get?_insert, get?_insert, ih]
    by_cases hkey : key = f.1
    · simp [hkey]
    · simp [hkey]

/-- The first entries with every key of the second ones set. -/
def updated (es : Keyed α) (fs : List (String × α)) : Keyed α :=
  fs.foldl (fun acc f => insert f.1 f.2 acc) es

theorem ofList_append (es fs : List (String × α)) :
    ofList (es ++ fs) = updated (ofList es) fs :=
  List.foldl_append

theorem updated_ofList (es fs : List (String × α)) :
    updated (ofList es) (ofList fs) = ofList (es ++ fs) := by
  have hes := ofList_of_sorted (sorted_ofList es)
  have hfs := ofList_of_sorted (sorted_ofList fs)
  calc updated (ofList es) (ofList fs)
      = ofList (ofList es ++ ofList fs) := by rw [ofList_append, hes]
    _ = ofList (es ++ fs) := by
      refine (sorted_ofList _).ext (sorted_ofList _) fun key => ?_
      rw [get?_ofList_append, get?_ofList_append, hes, hfs]

section Told

variable {ι : Type} {tells : ι → String → α → Prop} {entry : ι → Option (String × α)}
  {sources : List ι}

/-- Of the sources that tell a value for the key the last one tells this value. -/
def LastTold (tells : ι → String → α → Prop) (key : String) (value : α) (sources : List ι) : Prop :=
  ∃ before s after, sources = before ++ s :: after ∧ tells s key value ∧
    ∀ r ∈ after, ∀ v, ¬ tells r key v

theorem lastTold_concat {s : ι} :
    LastTold tells key value (sources ++ [s]) ↔
      tells s key value ∨ (∀ v, ¬ tells s key v) ∧ LastTold tells key value sources := by
  constructor
  · rintro ⟨before, r, after, heq, hr, hafter⟩
    rcases concat_eq_split_iff.mp heq with ⟨-, rfl, -⟩ | ⟨rest, hsources, rfl⟩
    · exact .inl hr
    · exact .inr ⟨hafter s (by simp), before, r, rest, hsources, hr,
        fun q hq => hafter q (List.mem_append_left _ hq)⟩
  · rintro (htells | ⟨hsilent, before, r, after, rfl, hr, hafter⟩)
    · exact ⟨sources, s, [], rfl, htells, by simp⟩
    · refine ⟨before, r, after ++ [s], by simp, hr, fun q hq => ?_⟩
      rcases List.mem_append.mp hq with hq | hq
      · exact hafter q hq
      · exact List.mem_singleton.mp hq ▸ hsilent

theorem exists_lastTold_or (tells : ι → String → α → Prop) (key : String) (sources : List ι) :
    (∃ value, LastTold tells key value sources) ∨ ∀ s ∈ sources, ∀ v, ¬ tells s key v := by
  induction sources using List.reverseRecOn with
  | nil => exact .inr (by simp)
  | append_singleton sources s ih =>
    by_cases hs : ∃ value, tells s key value
    · obtain ⟨value, hvalue⟩ := hs
      exact .inl ⟨value, lastTold_concat.mpr (.inl hvalue)⟩
    · have hsilent : ∀ v, ¬ tells s key v := fun v hv => hs ⟨v, hv⟩
      rcases ih with ⟨value, hvalue⟩ | hnone
      · exact .inl ⟨value, lastTold_concat.mpr (.inr ⟨hsilent, hvalue⟩)⟩
      · refine .inr fun r hr => ?_
        rcases List.mem_append.mp hr with hr | hr
        · exact hnone r hr
        · exact List.mem_singleton.mp hr ▸ hsilent

theorem mem_keys_filterMap_iff
    (h : ∀ s key value, entry s = some (key, value) ↔ tells s key value) :
    key ∈ keys (sources.filterMap entry) ↔ ∃ s ∈ sources, ∃ value, tells s key value := by
  constructor
  · intro hmem
    obtain ⟨⟨key, value⟩, he, rfl⟩ := List.mem_map.mp hmem
    obtain ⟨s, hs, hentry⟩ := List.mem_filterMap.mp he
    exact ⟨s, hs, value, (h s key value).mp hentry⟩
  · rintro ⟨s, hs, value, htells⟩
    exact mem_keys_of_mem (List.mem_filterMap.mpr ⟨s, hs, (h s key value).mpr htells⟩)

theorem lastUnder_filterMap_iff
    (h : ∀ s key value, entry s = some (key, value) ↔ tells s key value) :
    LastUnder key value (sources.filterMap entry) ↔ LastTold tells key value sources := by
  constructor
  · rintro ⟨before, after, heq, hafter⟩
    obtain ⟨front, back, rfl, -, hback⟩ := List.filterMap_eq_append_iff.mp heq
    obtain ⟨silent, s, rest, rfl, -, hs, rfl⟩ := List.filterMap_eq_cons_iff.mp hback
    refine ⟨front ++ silent, s, rest, by simp, (h s key value).mp hs, fun r hr v htells => ?_⟩
    exact hafter ((mem_keys_filterMap_iff h).mpr ⟨r, hr, v, htells⟩)
  · rintro ⟨before, s, after, rfl, hs, hafter⟩
    refine ⟨before.filterMap entry, after.filterMap entry, ?_, fun hmem => ?_⟩
    · rw [List.filterMap_append, List.filterMap_cons_some ((h s key value).mpr hs)]
    · obtain ⟨r, hr, v, htells⟩ := (mem_keys_filterMap_iff h).mp hmem
      exact hafter r hr v htells

/-- The entries that sources tell, of which the last one under a key counts. -/
theorem get?_ofList_filterMap_iff
    (h : ∀ s key value, entry s = some (key, value) ↔ tells s key value) :
    get? key (ofList (sources.filterMap entry)) = some value ↔
      LastTold tells key value sources := by
  rw [get?_ofList_eq_some_iff, lastUnder_filterMap_iff h]

end Told

end Keyed
end MappingSweep
