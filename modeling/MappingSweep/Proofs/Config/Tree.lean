import MappingSweep.Config.Tree
import MappingSweep.Proofs.Keyed

/-!
# Laws of merging

What a merged tree holds at a path of keys: where the overrides hold a leaf, that leaf; where they
are a map without the next key, what the base holds.  Merging well-formed trees gives a well-formed
tree.
-/

namespace MappingSweep

/-- Integers have 64 bits. -/
def Scalar.Fits : Scalar → Prop
  | .int n => -(Number.signedBound : Int) ≤ n ∧ n < Number.signedBound
  | _ => True

namespace Config

open Keyed (keys)

variable {base overrides s t : Config} {entries above : Entries} {key : String}

theorem sizeOf_lt_of_mem {e : String × Config} (h : e ∈ entries) :
    sizeOf e.2 < sizeOf (Config.map entries) := by
  have hentry := List.sizeOf_lt_of_mem h
  obtain ⟨k, t⟩ := e
  simp only [Prod.mk.sizeOf_spec, Config.map.sizeOf_spec] at hentry ⊢
  omega

/-- Proves something of every tree from the parts of lists and maps up. -/
theorem induction {p : Config → Prop} (scalar : ∀ s, p (.scalar s))
    (list : ∀ items, (∀ t ∈ items, p t) → p (.list items))
    (map : ∀ entries, (∀ e ∈ entries, p e.2) → p (.map entries)) : ∀ t, p t
  | .scalar s => scalar s
  | .list items => list items fun t _ => induction scalar list map t
  | .map entries => map entries fun e _ => induction scalar list map e.2
termination_by t => t
decreasing_by
  · decreasing_tactic
  · rename_i he
    exact sizeOf_lt_of_mem he

/-- Every map holds its keys in order, each once, and every integer has 64 bits. -/
inductive WellFormed : Config → Prop where
  | scalar {s : Scalar} (fits : s.Fits) : WellFormed (.scalar s)
  | list {items : List Config} (parts : ∀ t ∈ items, WellFormed t) : WellFormed (.list items)
  | map {entries : Entries} (sorted : Keyed.Sorted entries)
      (parts : ∀ e ∈ entries, WellFormed e.2) : WellFormed (.map entries)

@[simp] theorem wellFormed_scalar_iff {s : Scalar} : (scalar s).WellFormed ↔ s.Fits :=
  ⟨fun h => by cases h; assumption, .scalar⟩

@[simp] theorem wellFormed_list_iff {items : List Config} :
    (list items).WellFormed ↔ ∀ t ∈ items, t.WellFormed :=
  ⟨fun h => by cases h; assumption, .list⟩

@[simp] theorem wellFormed_map_iff :
    (map entries).WellFormed ↔ Keyed.Sorted entries ∧ ∀ e ∈ entries, e.2.WellFormed :=
  ⟨fun h => by cases h; constructor <;> assumption, fun h => .map h.1 h.2⟩

@[simp] theorem wellFormed_str (s : String) : (str s).WellFormed :=
  .scalar trivial

theorem WellFormed.sorted (h : (Config.map entries).WellFormed) : Keyed.Sorted entries :=
  (wellFormed_map_iff.mp h).1

theorem wellFormed_mapOf {entries : List (String × Config)}
    (h : ∀ e ∈ entries, e.2.WellFormed) : (mapOf entries).WellFormed :=
  .map (Keyed.sorted_ofList entries) (Keyed.forall_mem_ofList h)

theorem WellFormed.of_get? (h : (Config.map entries).WellFormed)
    (hget : Keyed.get? key entries = some t) : t.WellFormed :=
  (wellFormed_map_iff.mp h).2 _ (Keyed.mem_of_get?_eq_some hget)

theorem exists_of_isMap (h : t.isMap = true) : ∃ entries, t = .map entries := by
  cases t with
  | map entries => exact ⟨entries, rfl⟩
  | _ => cases h

/-- What a map holds under a key.  Other trees hold nothing. -/
def field? (key : String) : Config → Option Config
  | .map entries => Keyed.get? key entries
  | _ => none

/-- What is reached by going into maps, one key after the other. -/
def under? (path : List String) (t : Config) : Option Config :=
  path.foldlM (fun node key => node.field? key) t

@[simp] theorem under?_nil (t : Config) : t.under? [] = some t :=
  rfl

@[simp] theorem under?_cons (key : String) (path : List String) (t : Config) :
    t.under? (key :: path) = (t.field? key).bind (under? path) :=
  List.foldlM_cons ..

theorem exists_map_of_field? (h : t.field? key = some s) :
    ∃ entries, t = .map entries ∧ Keyed.get? key entries = some s := by
  cases t with
  | map entries => exact ⟨entries, rfl, h⟩
  | _ => cases h

theorem sizeOf_lt_of_field? (h : t.field? key = some s) : sizeOf s < sizeOf t := by
  obtain ⟨entries, rfl, hget⟩ := exists_map_of_field? h
  exact sizeOf_lt_of_mem (Keyed.mem_of_get?_eq_some hget)

theorem WellFormed.of_field? (h : t.WellFormed) (hfield : t.field? key = some s) :
    s.WellFormed := by
  obtain ⟨entries, rfl, hget⟩ := exists_map_of_field? hfield
  exact h.of_get? hget

theorem WellFormed.of_under? {path : List String} (h : t.WellFormed)
    (hunder : t.under? path = some s) : s.WellFormed := by
  induction path generalizing t with
  | nil =>
    cases hunder
    exact h
  | cons key path ih =>
    obtain ⟨next, hnext, hrest⟩ := Option.bind_eq_some_iff.mp (t.under?_cons key path ▸ hunder)
    exact ih (h.of_field? hnext) hrest

theorem under?_append (t : Config) (path more : List String) :
    t.under? (path ++ more) = (t.under? path).bind (under? more) :=
  List.foldlM_append ..

theorem under?_of_not_map {path : List String} (h : t.isMap = false) (hpath : path ≠ []) :
    t.under? path = none := by
  obtain ⟨key, rest, rfl⟩ := List.exists_cons_of_ne_nil hpath
  cases t with
  | map entries => cases h
  | _ => rfl

/-- Maps are known by what they hold under each key. -/
theorem eq_of_field? (hs : s.WellFormed) (ht : t.WellFormed) (hsmap : s.isMap = true)
    (htmap : t.isMap = true) (h : ∀ key, s.field? key = t.field? key) : s = t := by
  obtain ⟨entries, rfl⟩ := exists_of_isMap hsmap
  obtain ⟨above, rfl⟩ := exists_of_isMap htmap
  rw [hs.sorted.ext ht.sorted h]

/-- Before the end of the path the tree holds something else than a map. -/
def Blocks (t : Config) (path : List String) : Prop :=
  ∃ before after leaf, path = before ++ after ∧ after ≠ [] ∧
    t.under? before = some leaf ∧ leaf.isMap = false

/-- Somewhere on the path the tree is a map without the next key. -/
def Lacks (t : Config) (path : List String) : Prop :=
  ∃ before key after entries, path = before ++ key :: after ∧
    t.under? before = some (.map entries) ∧ Keyed.get? key entries = none

section Nowhere

variable {path : List String}

theorem Blocks.under?_eq_none (h : t.Blocks path) : t.under? path = none := by
  obtain ⟨before, after, leaf, rfl, hafter, hleaf, hmap⟩ := h
  rw [under?_append, hleaf]
  exact under?_of_not_map hmap hafter

theorem Blocks.of_field? (h : t.field? key = some s) (hblocks : s.Blocks path) :
    t.Blocks (key :: path) := by
  obtain ⟨before, after, leaf, rfl, hafter, hleaf, hmap⟩ := hblocks
  refine ⟨key :: before, after, leaf, rfl, hafter, ?_, hmap⟩
  rw [under?_cons, h]
  exact hleaf

theorem Lacks.of_field? (h : t.field? key = some s) (hlacks : s.Lacks path) :
    t.Lacks (key :: path) := by
  obtain ⟨before, next, after, entries, rfl, hentries, hnext⟩ := hlacks
  refine ⟨key :: before, next, after, entries, rfl, ?_, hnext⟩
  rw [under?_cons, h]
  exact hentries

theorem blocks_or_lacks (h : t.under? path = none) : t.Blocks path ∨ t.Lacks path := by
  induction path generalizing t with
  | nil => cases h
  | cons key path ih =>
    cases hmap : t.isMap with
    | false => exact .inl ⟨[], key :: path, t, rfl, by simp, rfl, hmap⟩
    | true =>
      obtain ⟨entries, rfl⟩ := exists_of_isMap hmap
      cases hfield : (Config.map entries).field? key with
      | none => exact .inr ⟨[], key, path, entries, rfl, rfl, hfield⟩
      | some value =>
        rw [under?_cons, hfield] at h
        exact (ih h).imp (.of_field? hfield) (.of_field? hfield)

end Nowhere

/-- A dotted text without empty parts leads through maps as its parts do. -/
theorem lookup_of_under? {dotted : String} {path : List String}
    (hparts : Text.splitOn '.' dotted.toList = path.map String.toList)
    (h : t.under? path = some s) : t.lookup dotted = some s := by
  unfold lookup
  rw [hparts]
  clear hparts
  induction path generalizing t with
  | nil => exact h
  | cons key path ih =>
    rw [under?_cons] at h
    obtain ⟨next, hnext, hrest⟩ := Option.bind_eq_some_iff.mp h
    obtain ⟨entries, rfl, hget⟩ := exists_map_of_field? hnext
    have hchild : child? key.toList (.map entries) = some next := by
      rw [child?, String.ofList_toList, hget]
    rw [List.map_cons, List.foldlM_cons, hchild]
    exact ih hrest

/-! ## Merging one key -/

theorem merge_of_not_map (h : base.isMap = false) (t : Config) : base.merge t = t := by
  cases base with
  | map entries => cases h
  | _ => cases t <;> simp [merge]

theorem null_merge (t : Config) : (scalar .null).merge t = t :=
  merge_of_not_map rfl t

theorem merge_leaf (base : Config) (h : t.isMap = false) : base.merge t = t := by
  cases t with
  | map entries => cases h
  | _ => simp [merge]

/-- The tree that an override is laid over: what is there, or something that it replaces. -/
def orNull (held : Option Config) : Config :=
  held.getD (.scalar .null)

theorem mergeEntries_cons (base : Entries) (key : String) (value : Config) (rest : Entries) :
    mergeEntries base ((key, value) :: rest) =
      mergeEntries (Keyed.insert key ((orNull (Keyed.get? key base)).merge value) base) rest := by
  rw [mergeEntries]
  cases Keyed.get? key base with
  | some held => rfl
  | none => rw [orNull, Option.getD_none, null_merge]

theorem get?_mergeEntries (h : (keys above).Nodup) (base : Entries) (key : String) :
    Keyed.get? key (mergeEntries base above) =
      match Keyed.get? key above with
      | some value => some ((orNull (Keyed.get? key base)).merge value)
      | none => Keyed.get? key base := by
  induction above generalizing base with
  | nil => simp [mergeEntries]
  | cons e rest ih =>
    obtain ⟨k, v⟩ := e
    obtain ⟨hfresh, hrest⟩ := List.nodup_cons.mp h
    rw [mergeEntries_cons, ih hrest, Keyed.get?_insert, Keyed.get?_cons]
    by_cases hkey : key = k
    · subst hkey
      rw [Keyed.get?_eq_none_iff.mpr hfresh]
      simp
    · simp [hkey]

theorem field?_merge_map (h : (keys above).Nodup) (base : Config) (key : String) :
    (base.merge (.map above)).field? key =
      match Keyed.get? key above with
      | some value => some ((orNull (base.field? key)).merge value)
      | none => base.field? key := by
  cases base with
  | map entries =>
    rw [merge]
    exact get?_mergeEntries h entries key
  | _ =>
    rw [merge_of_not_map rfl]
    cases hget : Keyed.get? key above with
    | none => simp [field?, hget]
    | some value => simp [field?, hget, orNull, null_merge]

theorem WellFormed.insert (h : (Config.map entries).WellFormed) (ht : t.WellFormed) :
    (Config.map (Keyed.insert key t entries)).WellFormed := by
  obtain ⟨hsorted, hparts⟩ := wellFormed_map_iff.mp h
  refine .map hsorted.insert fun e he => ?_
  rcases Keyed.mem_insert he with rfl | he
  · exact ht
  · exact hparts e he

theorem wellFormed_orNull {held : Option Config} (h : ∀ t ∈ held, t.WellFormed) :
    (orNull held).WellFormed := by
  cases held with
  | none => exact .scalar trivial
  | some t => exact h t rfl

theorem wellFormed_mergeEntries
    (habove : ∀ e ∈ above, ∀ {held : Config}, held.WellFormed → (held.merge e.2).WellFormed)
    (h : (Config.map entries).WellFormed) :
    (Config.map (mergeEntries entries above)).WellFormed := by
  induction above generalizing entries with
  | nil =>
    rw [mergeEntries]
    exact h
  | cons e rest ih =>
    obtain ⟨key, value⟩ := e
    have hheld : (orNull (Keyed.get? key entries)).WellFormed :=
      wellFormed_orNull fun t ht => h.of_get? ht
    rw [mergeEntries_cons]
    exact ih (fun e he => habove e (List.mem_cons_of_mem _ he))
      (h.insert (habove (key, value) List.mem_cons_self hheld))

theorem WellFormed.merge (hbase : base.WellFormed) (hoverrides : overrides.WellFormed) :
    (base.merge overrides).WellFormed := by
  induction hoverrides generalizing base with
  | scalar fits =>
    rw [merge_leaf base rfl]
    exact .scalar fits
  | list parts _ =>
    rw [merge_leaf base rfl]
    exact .list parts
  | map sorted parts ih =>
    cases base with
    | map entries =>
      rw [Config.merge]
      exact wellFormed_mergeEntries ih hbase
    | _ =>
      rw [merge_of_not_map rfl]
      exact .map sorted parts

theorem under?_orNull {path : List String} (hpath : path ≠ []) (held : Option Config) :
    (orNull held).under? path = held.bind (under? path) := by
  cases held with
  | some t => rfl
  | none =>
    obtain ⟨key, path, rfl⟩ := List.exists_cons_of_ne_nil hpath
    rfl

theorem orNull_under?_orNull (held : Option Config) (path : List String) :
    orNull ((orNull held).under? path) = orNull (held.bind (under? path)) := by
  cases path with
  | nil => cases held <;> rfl
  | cons key path => rw [under?_orNull (List.cons_ne_nil key path)]

/-- Whatever the overrides hold at a path is laid over what the base holds there. -/
theorem under?_merge_of_under? (hoverrides : overrides.WellFormed) (base : Config)
    {path : List String} (h : overrides.under? path = some s) :
    (base.merge overrides).under? path = some ((orNull (base.under? path)).merge s) := by
  induction path generalizing base overrides with
  | nil =>
    cases h
    rfl
  | cons key path ih =>
    rw [under?_cons] at h
    obtain ⟨value, hvalue, hrest⟩ := Option.bind_eq_some_iff.mp h
    obtain ⟨above, rfl, hget⟩ := exists_map_of_field? hvalue
    rw [under?_cons, field?_merge_map hoverrides.sorted.nodup_keys, hget, under?_cons,
      ← orNull_under?_orNull]
    exact ih (hoverrides.of_get? hget) (orNull (base.field? key)) hrest

/-- A leaf of the overrides replaces whatever the base holds at its path or on the way to it. -/
theorem under?_merge_of_leaf (hoverrides : overrides.WellFormed) (base : Config)
    {path : List String} (hleaf : overrides.under? path = some s) (hs : s.isMap = false) :
    (base.merge overrides).under? path = some s := by
  rw [under?_merge_of_under? hoverrides base hleaf, merge_leaf _ hs]

/-- Where the overrides are a map that lacks the next key, the base stays as it is. -/
theorem under?_merge_of_lacks (hoverrides : overrides.WellFormed) (base : Config)
    {path : List String} (h : overrides.Lacks path) :
    (base.merge overrides).under? path = base.under? path := by
  obtain ⟨before, key, after, above, rfl, hmap, habsent⟩ := h
  induction before generalizing base overrides with
  | nil =>
    cases hmap
    rw [List.nil_append, under?_cons, field?_merge_map hoverrides.sorted.nodup_keys, habsent,
      under?_cons]
  | cons first before ih =>
    rw [under?_cons] at hmap
    obtain ⟨value, hvalue, hrest⟩ := Option.bind_eq_some_iff.mp hmap
    obtain ⟨top, rfl, hget⟩ := exists_map_of_field? hvalue
    have hbelow := ih (hoverrides.of_get? hget) (orNull (base.field? first)) hrest
    rw [List.cons_append, under?_cons, field?_merge_map hoverrides.sorted.nodup_keys, hget,
      under?_cons, ← under?_orNull (by simp) (base.field? first)]
    exact hbelow

mutual

/-- The paths to everything that is not a map with entries. -/
def leafPaths : Config → List (List String)
  | .map (e :: es) => entryPaths (e :: es)
  | _ => [[]]

def entryPaths : Entries → List (List String)
  | [] => []
  | (key, t) :: rest => (leafPaths t).map (key :: ·) ++ entryPaths rest

end

theorem leafPaths_ne_nil : ∀ t : Config, t.leafPaths ≠ [] := by
  apply induction
  · intro s
    simp [leafPaths]
  · intro items _
    simp [leafPaths]
  · intro entries ih
    cases entries with
    | nil => simp [leafPaths]
    | cons e es =>
      obtain ⟨key, t⟩ := e
      have ht : t.leafPaths ≠ [] := ih (key, t) List.mem_cons_self
      simp [leafPaths, entryPaths, ht]

theorem mem_entryPaths {path : List String} (h : (key, t) ∈ entries) (hpath : path ∈ t.leafPaths) :
    key :: path ∈ entryPaths entries := by
  induction entries with
  | nil => cases h
  | cons e rest ih =>
    obtain ⟨k, v⟩ := e
    rw [entryPaths, List.mem_append]
    rcases List.mem_cons.mp h with heq | hmem
    · cases heq
      exact .inl (List.mem_map_of_mem hpath)
    · exact .inr (ih hmem)

/-- The two paths part at some key. -/
def PathsPart (p q : List String) : Prop :=
  ¬ p <+: q ∧ ¬ q <+: p

instance (p q : List String) : Decidable (PathsPart p q) :=
  inferInstanceAs (Decidable (_ ∧ _))

/-- A path that parts from the paths to all leaves leaves the tree at a map without its next key. -/
theorem lacks_of_parting {path : List String} (h : ∀ p ∈ t.leafPaths, PathsPart path p) :
    t.Lacks path := by
  induction path generalizing t with
  | nil =>
    obtain ⟨p, hp⟩ := List.exists_mem_of_ne_nil _ t.leafPaths_ne_nil
    exact absurd List.nil_prefix (h p hp).1
  | cons key path ih =>
    cases t with
    | scalar s => exact absurd List.nil_prefix (h [] (by simp [leafPaths])).2
    | list items => exact absurd List.nil_prefix (h [] (by simp [leafPaths])).2
    | map entries =>
      cases hget : Keyed.get? key entries with
      | none => exact ⟨[], key, path, entries, rfl, rfl, hget⟩
      | some value =>
        obtain ⟨e, es, rfl⟩ := List.exists_cons_of_ne_nil
          (List.ne_nil_of_mem (Keyed.mem_of_get?_eq_some hget))
        have hparts : ∀ p ∈ value.leafPaths, PathsPart path p := by
          intro p hp
          have hpart := h (key :: p) (mem_entryPaths (Keyed.mem_of_get?_eq_some hget) hp)
          exact ⟨fun hprefix => hpart.1 (List.cons_prefix_cons.mpr ⟨rfl, hprefix⟩),
            fun hprefix => hpart.2 (List.cons_prefix_cons.mpr ⟨rfl, hprefix⟩)⟩
        exact .of_field? hget (ih hparts)

/-- Away from the paths that the overrides set, the base stays as it is. -/
theorem under?_merge_of_parting (hoverrides : overrides.WellFormed) (base : Config)
    {path : List String} (h : ∀ p ∈ overrides.leafPaths, PathsPart path p) :
    (base.merge overrides).under? path = base.under? path :=
  under?_merge_of_lacks hoverrides base (lacks_of_parting h)

end Config
end MappingSweep
