import Mathlib.Data.Fintype.EquivFin
import MappingSweep.Proofs.Config.Tree

/-!
# Overrides over a base and over each other

What a tree holds at any path of keys once overrides are laid over it.  Overrides that are laid one
after the other may be laid a second time without effect, and two of them may be laid over each
other first unless the later one opens a map in the place of something else.
-/

namespace MappingSweep
namespace Config

variable {base overrides first second s t : Config} {entries above : Entries} {key : String}
  {path : List String}

theorem Blocks.merge (h : overrides.Blocks path) (hoverrides : overrides.WellFormed)
    (base : Config) : (base.merge overrides).Blocks path := by
  obtain ⟨before, after, leaf, rfl, hafter, hleaf, hmap⟩ := h
  exact ⟨before, after, leaf, rfl, hafter, under?_merge_of_leaf hoverrides base hleaf hmap, hmap⟩

/-- A map laid over anything gives a map. -/
theorem isMap_merge_map (base : Config) (above : Entries) :
    (base.merge (.map above)).isMap = true := by
  cases base <;> simp [merge, isMap]

theorem isMap_orNull {held : Option Config} (h : ∀ entries, held ≠ some (.map entries)) :
    (orNull held).isMap = false := by
  cases held with
  | none => rfl
  | some t =>
    cases t with
    | map entries => exact absurd rfl (h entries)
    | _ => rfl

/-- What the overrides hold at a path decides what the merged tree holds there: something else than
a map stays as it is, a map is laid over the map of the base if there is one, nothing can be behind
what is no map, and where a key is lacking the base stays as it is.  One of these is the case at
every path. -/
theorem merged_at_every_path (hoverrides : overrides.WellFormed) (base : Config)
    (path : List String) :
    (∀ leaf, overrides.under? path = some leaf → leaf.isMap = false →
      (base.merge overrides).under? path = some leaf) ∧
    (overrides.Blocks path → (base.merge overrides).under? path = none) ∧
    (∀ above, overrides.under? path = some (.map above) →
      ∃ merged, (base.merge overrides).under? path = some (.map merged) ∧
        (∀ entries, base.under? path = some (.map entries) →
          .map merged = (Config.map entries).merge (.map above)) ∧
        ((∀ entries, base.under? path ≠ some (.map entries)) → merged = above)) ∧
    (overrides.Lacks path → (base.merge overrides).under? path = base.under? path) ∧
    (overrides.under? path = none → overrides.Blocks path ∨ overrides.Lacks path) := by
  refine ⟨fun leaf hleaf hmap => under?_merge_of_leaf hoverrides base hleaf hmap,
    fun hblocks => (hblocks.merge hoverrides base).under?_eq_none, fun above habove => ?_,
    under?_merge_of_lacks hoverrides base, blocks_or_lacks⟩
  have hmerged := under?_merge_of_under? hoverrides base habove
  obtain ⟨merged, heq⟩ := exists_of_isMap (isMap_merge_map (orNull (base.under? path)) above)
  refine ⟨merged, heq ▸ hmerged, fun entries hentries => ?_, fun hnone => ?_⟩
  · rw [← heq, hentries]
    rfl
  · rw [merge_of_not_map (isMap_orNull hnone)] at heq
    cases heq
    rfl

/-- A base with a text where the overrides have a map. -/
def mapperBase : Config :=
  .map [
    ("AddrMapper", .str "RoBaRaCoCh"),
    ("Controller", .map [("impl", .str "Generic"), ("plugins", .map [("first", .list [])])])]

def mapperOverrides : Config :=
  .map [
    ("AddrMapper", .map [("mapping", .str "m")]),
    ("Controller", .map [("plugins", .list [])])]

theorem wellFormed_mapperOverrides : mapperOverrides.WellFormed := by
  simp only [mapperOverrides, wellFormed_map_iff, wellFormed_list_iff, wellFormed_str,
    List.forall_mem_cons, List.not_mem_nil, false_imp_iff, implies_true, and_true]
  decide

theorem merged_at_every_path_mapperBase :
    mapperOverrides.WellFormed ∧
      (mapperBase.merge mapperOverrides).under? ["AddrMapper", "mapping"] = some (.str "m") ∧
      (mapperBase.merge mapperOverrides).under? ["Controller", "plugins", "first"] = none ∧
      (mapperBase.merge mapperOverrides).under? ["AddrMapper"] =
        some (.map [("mapping", .str "m")]) ∧
      (mapperBase.merge mapperOverrides).under? ["Controller", "impl"] = some (.str "Generic") := by
  have hwell := wellFormed_mapperOverrides
  obtain ⟨hleaf, -⟩ := merged_at_every_path hwell mapperBase ["AddrMapper", "mapping"]
  obtain ⟨-, hblocked, -⟩ :=
    merged_at_every_path hwell mapperBase ["Controller", "plugins", "first"]
  obtain ⟨-, -, hmap, -⟩ := merged_at_every_path hwell mapperBase ["AddrMapper"]
  obtain ⟨-, -, -, hlacks, -⟩ := merged_at_every_path hwell mapperBase ["Controller", "impl"]
  refine ⟨hwell, hleaf _ rfl rfl, ?_, ?_, ?_⟩
  · exact hblocked ⟨["Controller", "plugins"], ["first"], .list [], rfl, by simp, rfl, rfl⟩
  · obtain ⟨merged, hmerged, -, hnew⟩ := hmap [("mapping", .str "m")] rfl
    rw [hmerged, hnew fun entries hentries => by cases hentries]
  · exact hlacks ⟨["Controller"], "impl", [], [("plugins", .list [])], rfl, rfl, rfl⟩

/-! ## Overrides one after the other -/

variable {os : List Config}

/-- Lays all overrides over the base in their order. -/
def overlay (os : List Config) (base : Config) : Config :=
  os.foldl merge base

theorem overlay_cons (o : Config) (os : List Config) (base : Config) :
    overlay (o :: os) base = overlay os (base.merge o) :=
  rfl

/-- Lays values over what is held, if anything is. -/
def overlayField (values : List Config) (held : Option Config) : Option Config :=
  values.foldl (fun held value => some ((orNull held).merge value)) held

theorem overlayField_some (values : List Config) (t : Config) :
    overlayField values (some t) = some (overlay values t) := by
  induction values generalizing t with
  | nil => rfl
  | cons value values ih => exact ih (t.merge value)

theorem overlayField_cons (value : Config) (values : List Config) (held : Option Config) :
    overlayField (value :: values) held = some (overlay (value :: values) (orNull held)) :=
  overlayField_some values ((orNull held).merge value)

theorem WellFormed.overlay (hbase : base.WellFormed) (h : ∀ o ∈ os, o.WellFormed) :
    (overlay os base).WellFormed := by
  induction os generalizing base with
  | nil => exact hbase
  | cons o os ih =>
    obtain ⟨ho, hos⟩ := List.forall_mem_cons.mp h
    exact ih (hbase.merge ho) hos

/-- Behind something else than a map the base is forgotten. -/
theorem overlay_of_leaf {o : Config} (ho : o ∈ os) (hleaf : o.isMap = false)
    (base base' : Config) : overlay os base = overlay os base' := by
  obtain ⟨before, after, rfl⟩ := List.append_of_mem ho
  simp only [overlay, List.foldl_append, List.foldl_cons, merge_leaf _ hleaf]

theorem isMap_overlay (hbase : base.isMap = true) (hmaps : ∀ o ∈ os, o.isMap = true) :
    (overlay os base).isMap = true := by
  induction os generalizing base with
  | nil => exact hbase
  | cons o os ih =>
    obtain ⟨ho, hos⟩ := List.forall_mem_cons.mp hmaps
    obtain ⟨above, rfl⟩ := exists_of_isMap ho
    exact ih (isMap_merge_map base above) hos

/-- Under each key only what the overrides hold there is laid over each other. -/
theorem field?_overlay (hmaps : ∀ o ∈ os, o.isMap = true) (h : ∀ o ∈ os, o.WellFormed)
    (base : Config) (key : String) :
    (overlay os base).field? key = overlayField (os.filterMap (field? key)) (base.field? key) := by
  induction os generalizing base with
  | nil => rfl
  | cons o os ih =>
    obtain ⟨ho, hos⟩ := List.forall_mem_cons.mp h
    obtain ⟨hmap, hrest⟩ := List.forall_mem_cons.mp hmaps
    obtain ⟨above, rfl⟩ := exists_of_isMap hmap
    calc (overlay (.map above :: os) base).field? key
      _ = overlayField (os.filterMap (field? key)) ((base.merge (.map above)).field? key) :=
        ih hrest hos (base.merge (.map above))
      _ = overlayField ((Config.map above :: os).filterMap (field? key)) (base.field? key) := by
        rw [field?_merge_map ho.sorted.nodup_keys, List.filterMap_cons, field?]
        cases Keyed.get? key above <;> rfl

/-- Laying the overrides over each other twice under each key is enough. -/
theorem overlay_overlay_of_fields (hbase : base.WellFormed) (h : ∀ o ∈ os, o.WellFormed)
    (hmaps : ∀ o ∈ os, o.isMap = true)
    (hfields : ∀ key held, held.WellFormed →
      overlay (os.filterMap (field? key)) (overlay (os.filterMap (field? key)) held) =
        overlay (os.filterMap (field? key)) held) :
    overlay os (overlay os base) = overlay os base := by
  cases os with
  | nil => rfl
  | cons o rest =>
    have honce : (overlay (o :: rest) base).isMap = true := by
      obtain ⟨hmap, hrest⟩ := List.forall_mem_cons.mp hmaps
      obtain ⟨above, rfl⟩ := exists_of_isMap hmap
      rw [overlay_cons]
      exact isMap_overlay (isMap_merge_map base above) hrest
    refine eq_of_field? ((hbase.overlay h).overlay h) (hbase.overlay h)
      (isMap_overlay honce hmaps) honce fun key => ?_
    have hkey := hfields key (orNull (base.field? key))
      (wellFormed_orNull fun t ht => hbase.of_field? ht)
    rw [field?_overlay hmaps h, field?_overlay hmaps h]
    generalize (o :: rest).filterMap (field? key) = values at hkey ⊢
    cases values with
    | nil => rfl
    | cons v values => rw [overlayField_cons v values (base.field? key), overlayField_some, hkey]

-- By induction on a bound for the size of the overrides.  If one of them is no map, what is below
-- it does not count.  Otherwise each key has overrides of its own, and they are smaller.
theorem overlay_overlay_of_size {size : Nat} (hsize : ∀ o ∈ os, sizeOf o < size)
    (hbase : base.WellFormed) (h : ∀ o ∈ os, o.WellFormed) :
    overlay os (overlay os base) = overlay os base := by
  induction size generalizing os base with
  | zero =>
    have hnone : os = [] := List.eq_nil_iff_forall_not_mem.mpr fun o ho =>
      absurd (hsize o ho) (Nat.not_lt_zero _)
    rw [hnone]
    rfl
  | succ size ih =>
    by_cases hmaps : ∀ o ∈ os, o.isMap = true
    · refine overlay_overlay_of_fields hbase h hmaps fun key held hheld => ih ?_ hheld ?_
      · intro v hv
        obtain ⟨o, ho, hfield⟩ := List.mem_filterMap.mp hv
        have hless := sizeOf_lt_of_field? hfield
        have hbound := hsize o ho
        omega
      · intro v hv
        obtain ⟨o, ho, hfield⟩ := List.mem_filterMap.mp hv
        exact (h o ho).of_field? hfield
    · push Not at hmaps
      obtain ⟨o, ho, hleaf⟩ := hmaps
      exact overlay_of_leaf ho (Bool.eq_false_of_not_eq_true hleaf) _ _

/-- Laying overrides over a base a second time changes nothing, whatever they do to each other. -/
theorem overlay_overlay (hbase : base.WellFormed) (h : ∀ o ∈ os, o.WellFormed) :
    overlay os (overlay os base) = overlay os base :=
  overlay_overlay_of_size (fun _ ho => List.sizeOf_lt_of_mem ho) hbase h

/-- A map that is replaced by a text, which a map replaces again. -/
def replacingOverrides : List Config :=
  [.map [("AddrMapper", .map [("impl", .str "Linear")])],
    .map [("AddrMapper", .str "RoBaRaCoCh")],
    .map [("AddrMapper", .map [("mapping", .str "m")])]]

theorem overlay_overlay_replacingOverrides :
    mapperBase.WellFormed ∧ (∀ o ∈ replacingOverrides, o.WellFormed) ∧
      overlay replacingOverrides mapperBase =
        .map [
          ("AddrMapper", .map [("mapping", .str "m")]),
          ("Controller", .map [
            ("impl", .str "Generic"), ("plugins", .map [("first", .list [])])])] ∧
      overlay replacingOverrides (overlay replacingOverrides mapperBase) =
        overlay replacingOverrides mapperBase := by
  have hbase : mapperBase.WellFormed := by
    simp only [mapperBase, wellFormed_map_iff, wellFormed_list_iff, wellFormed_str,
      List.forall_mem_cons, List.not_mem_nil, false_imp_iff, implies_true, and_true, true_and]
    decide
  have hoverrides : ∀ o ∈ replacingOverrides, o.WellFormed := by
    simp only [replacingOverrides, wellFormed_map_iff, wellFormed_str, List.forall_mem_cons,
      List.not_mem_nil, false_imp_iff, implies_true, and_true]
    decide
  exact ⟨hbase, hoverrides, rfl, overlay_overlay hbase hoverrides⟩

/-- Nowhere is there a map in the second in the place of something else in the first. -/
def OpensNothing (first second : Config) : Prop :=
  ∀ path leaf above, first.under? path = some leaf → second.under? path = some (.map above) →
    leaf.isMap = true

theorem OpensNothing.of_field? (h : OpensNothing first second) (hfirst : first.field? key = some s)
    (hsecond : second.field? key = some t) : OpensNothing s t := by
  intro path leaf above hleaf habove
  refine h (key :: path) leaf above ?_ ?_
  · rw [under?_cons, hfirst]
    exact hleaf
  · rw [under?_cons, hsecond]
    exact habove

theorem merge_merge_of_opensNothing (hbase : base.WellFormed) (hfirst : first.WellFormed)
    (hsecond : second.WellFormed) (h : OpensNothing first second) :
    (base.merge first).merge second = base.merge (first.merge second) := by
  induction hsecond generalizing base first with
  | scalar fits => rw [merge_leaf _ rfl, merge_leaf _ rfl, merge_leaf _ rfl]
  | list parts _ => rw [merge_leaf _ rfl, merge_leaf _ rfl, merge_leaf _ rfl]
  | @map above sorted parts ih =>
    obtain ⟨entries, rfl⟩ := exists_of_isMap (h [] first above rfl rfl)
    have habove : (Config.map above).WellFormed := .map sorted parts
    have hboth := hfirst.merge habove
    obtain ⟨both, heq⟩ := exists_of_isMap (isMap_merge_map (.map entries) above)
    have hfield := field?_merge_map sorted.nodup_keys (.map entries)
    rw [heq] at hboth hfield ⊢
    refine eq_of_field? ((hbase.merge hfirst).merge habove) (hbase.merge hboth)
      (isMap_merge_map _ above) (isMap_merge_map base both) fun key => ?_
    rw [field?_merge_map sorted.nodup_keys, field?_merge_map hfirst.sorted.nodup_keys,
      field?_merge_map hboth.sorted.nodup_keys]
    have hkey : Keyed.get? key both = _ := hfield key
    rw [hkey, field?]
    cases hvalue : Keyed.get? key above with
    | none => rfl
    | some value =>
      cases hunder : Keyed.get? key entries with
      | none =>
        dsimp only
        rw [show orNull none = scalar .null from rfl, null_merge]
      | some under =>
        have hheld : (orNull (base.field? key)).WellFormed :=
          wellFormed_orNull fun t ht => hbase.of_field? ht
        exact congrArg some (ih (key, value) (Keyed.mem_of_get?_eq_some hvalue) hheld
          (hfirst.of_get? hunder) (h.of_field? hunder hvalue))

/-- The tree that holds another one at a path, and nothing besides. -/
def nest (path : List String) (t : Config) : Config :=
  path.foldr (fun key below => .map [(key, below)]) t

theorem under?_nest (path : List String) (t : Config) : (nest path t).under? path = some t := by
  induction path with
  | nil => rfl
  | cons key path ih =>
    rw [nest, List.foldr_cons, under?_cons, field?, Keyed.get?_cons, if_pos rfl]
    exact ih

theorem wellFormed_nest (path : List String) (ht : t.WellFormed) : (nest path t).WellFormed := by
  induction path with
  | nil => exact ht
  | cons key path ih =>
    exact .map (List.pairwise_singleton ..) (List.forall_mem_singleton.mpr ih)

/-- Where the second opens a map over a leaf of the first, that map by itself would be laid over
whatever map the base holds there, but the leaf comes in between. -/
theorem exists_merge_merge_ne (hfirst : first.WellFormed) (hsecond : second.WellFormed)
    (h : ¬ OpensNothing first second) :
    ∃ base : Config, base.WellFormed ∧
      (base.merge first).merge second ≠ base.merge (first.merge second) := by
  unfold OpensNothing at h
  push Not at h
  obtain ⟨path, leaf, above, hleaf, habove, hmap⟩ := h
  have hmap : leaf.isMap = false := Bool.eq_false_of_not_eq_true hmap
  obtain ⟨key, hkey⟩ := Infinite.exists_notMem_finset (Keyed.keys above).toFinset
  have hlacks : Keyed.get? key above = none :=
    Keyed.get?_eq_none_iff.mpr fun hmem => hkey (List.mem_toFinset.mpr hmem)
  let held : Config := .map [(key, .scalar .null)]
  have hheld : held.WellFormed :=
    .map (List.pairwise_singleton ..) (List.forall_mem_singleton.mpr (.scalar trivial))
  refine ⟨nest path held, wellFormed_nest path hheld, fun heq => ?_⟩
  have hleft : (((nest path held).merge first).merge second).under? path = some (.map above) := by
    rw [under?_merge_of_under? hsecond _ habove, under?_merge_of_leaf hfirst _ hleaf hmap, orNull,
      Option.getD_some, merge_of_not_map hmap]
  have hboth : (first.merge second).under? path = some (.map above) := by
    rw [under?_merge_of_under? hsecond _ habove, hleaf, orNull, Option.getD_some,
      merge_of_not_map hmap]
  have hright : ((nest path held).merge (first.merge second)).under? path =
      some (held.merge (.map above)) := by
    rw [under?_merge_of_under? (hfirst.merge hsecond) _ hboth, under?_nest, orNull,
      Option.getD_some]
  rw [heq, hright] at hleft
  have hfield : (held.merge (.map above)).field? key = some (.scalar .null) := by
    rw [field?_merge_map, hlacks]
    · simp [held, field?]
    · exact (hsecond.of_under? habove).sorted.nodup_keys
  rw [Option.some.inj hleft, field?, hlacks] at hfield
  cases hfield

/-- Two overrides may be laid over each other first exactly if the second opens no map in the place
of something else in the first. -/
theorem merge_merge_iff_opensNothing (hfirst : first.WellFormed) (hsecond : second.WellFormed) :
    (∀ base : Config, base.WellFormed →
      (base.merge first).merge second = base.merge (first.merge second)) ↔
    OpensNothing first second := by
  refine ⟨fun h => ?_, fun h base hbase => merge_merge_of_opensNothing hbase hfirst hsecond h⟩
  by_contra hopens
  obtain ⟨base, hbase, hne⟩ := exists_merge_merge_ne hfirst hsecond hopens
  exact hne (h base hbase)

theorem merge_merge_iff_opensNothing_mapperOverrides :
    mapperOverrides.WellFormed ∧ (Config.map [("AddrMapper", .str "RoBaRaCoCh")]).WellFormed ∧
      (∀ base : Config, base.WellFormed →
        (base.merge mapperOverrides).merge (.map [("AddrMapper", .str "RoBaRaCoCh")]) =
          base.merge (mapperOverrides.merge (.map [("AddrMapper", .str "RoBaRaCoCh")]))) := by
  have hsecond : (Config.map [("AddrMapper", .str "RoBaRaCoCh")]).WellFormed :=
    .map (by decide) (List.forall_mem_singleton.mpr (wellFormed_str _))
  refine ⟨wellFormed_mapperOverrides, hsecond, ?_⟩
  refine (merge_merge_iff_opensNothing wellFormed_mapperOverrides hsecond).mpr ?_
  intro path leaf above hleaf habove
  cases path with
  | nil =>
    cases hleaf
    rfl
  | cons key path =>
    -- the second has a map nowhere below its root
    exfalso
    rw [under?_cons, field?, Keyed.get?_cons] at habove
    split at habove
    · cases path <;> cases habove
    · cases habove

end Config
end MappingSweep
