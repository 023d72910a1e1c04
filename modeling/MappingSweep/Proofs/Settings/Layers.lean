import MappingSweep.Proofs.FileSystem.Frame
import MappingSweep.Proofs.Keyed
import MappingSweep.Settings.Basic

/-!
# Layers, key by key

A layer sets a parameter if it has the key of the parameter, and leaves it as it was if not.  That
holds of every layer whose keys are names: a path would set a part of what lies below it, and an
empty table nothing.
-/

namespace MappingSweep

open Keyed (LastUnder LastTold keys lastUnder_concat)

namespace Setting

/-- Two settings that are the same, or that are both tables, which no parameter is. -/
inductive Alike : Setting → Setting → Prop
  | same (v : Setting) : Alike v v
  | tables (es fs : SettingsTable) : Alike (.table es) (.table fs)

instance decidableEqEmpty : (v : Setting) → Decidable (v = .table [])
  | .table [] => .isTrue rfl
  | .table (_ :: _) => .isFalse nofun
  | .null | .bool _ | .int _ | .float _ | .text _ | .list _ => .isFalse nofun

theorem alike_layOver {v : Setting} (below : Option Setting) (h : v ≠ .table []) :
    Alike v (layOver below v) := by
  cases v with
  | table es =>
    cases es with
    | nil => exact absurd rfl h
    | cons e es =>
      rw [layOver]
      · exact .tables _ _
      · exact nofun
  | _ =>
    rw [layOver]
    exact .same _

theorem lookup_cons (key k : String) (v : Setting) (t : SettingsTable) :
    List.lookup key ((k, v) :: t) = if key = k then some v else t.lookup key := by
  by_cases hkey : key = k
  · rw [hkey, List.lookup_cons_self, if_pos rfl]
  · rw [List.lookup_cons, beq_false_of_ne hkey, if_neg hkey]

theorem lookup_setEntry (key k : String) (v : Setting) (t : SettingsTable) :
    (setEntry k v t).lookup key = if key = k then some v else t.lookup key := by
  rw [setEntry, lookup_cons]
  split
  · rfl
  · rename_i hne
    exact @FileSystem.lookup_filter_of_pos _ _ _ _ (fun other => other ≠ k) key
      (by simpa using hne) t

end Setting

namespace SettingsTable

variable {key k : String} {v : Setting} {below above t : SettingsTable}
  {layers : List SettingsTable}

/-- Of every parameter, the layer sets what it has a value for and leaves the rest as it was. -/
def SetsKeys (below above : SettingsTable) : Prop :=
  ∀ key ∈ planKeys,
    (∀ v, LastUnder key v above → ∃ w, (overlay below above).lookup key = some w ∧ v.Alike w) ∧
    (key ∉ keys above → (overlay below above).lookup key = below.lookup key)

/-- No key is a path to a parameter or into one, and none comes with nothing at all. -/
def Plain (t : SettingsTable) : Prop :=
  ∀ e ∈ t, (KeyPath.ofKey e.1).name ∈ planKeys →
    KeyPath.ofKey e.1 = ⟨e.1, []⟩ ∧ e.2 ≠ .table []

instance (t : SettingsTable) : Decidable (Plain t) :=
  inferInstanceAs (Decidable (∀ e ∈ t, _ → _))

theorem ofKey_of_mem : ∀ key ∈ planKeys, KeyPath.ofKey key = ⟨key, []⟩ := by
  decide

theorem overlay_concat (below above : SettingsTable) (e : String × Setting) :
    overlay below (above ++ [e]) = setPath (overlay below above) e.1 e.2 :=
  List.foldl_concat ..

theorem lookup_setPath_of_ne (h : key ≠ (KeyPath.ofKey k).name) :
    (setPath t k v).lookup key = t.lookup key := by
  rw [setPath, Setting.lookup_setEntry, if_neg h]

theorem lookup_setPath_self (h : KeyPath.ofKey key = ⟨key, []⟩) :
    (setPath t key v).lookup key = some (Setting.layOver (t.lookup key) v) := by
  rw [setPath, Setting.lookup_setEntry, h, if_pos rfl, Setting.setAt]

theorem Plain.setsKeys (h : Plain above) (below : SettingsTable) : SetsKeys below above := by
  intro key hkey
  induction above using List.reverseRecOn with
  | nil => exact ⟨fun v hv => absurd hv.mem_keys List.not_mem_nil, fun _ => rfl⟩
  | append_singleton above e ih =>
    obtain ⟨ihset, ihkeep⟩ := ih fun e he => h e (List.mem_append_left _ he)
    obtain ⟨k, v⟩ := e
    by_cases heq : key = k
    · subst heq
      have hpath := ofKey_of_mem key hkey
      have hempty : v ≠ .table [] := (h (key, v) (by simp) (by rwa [hpath])).2
      rw [overlay_concat, lookup_setPath_self hpath]
      refine ⟨fun w hw => ?_, fun hmem => absurd (by simp) hmem⟩
      rcases lastUnder_concat.mp hw with hlast | ⟨hne, -⟩
      · cases hlast
        exact ⟨_, rfl, Setting.alike_layOver _ hempty⟩
      · exact absurd rfl hne
    · have hname : key ≠ (KeyPath.ofKey k).name := by
        intro hname
        have hpath := (h (k, v) (by simp) (hname ▸ hkey)).1
        rw [hpath] at hname
        exact heq hname
      rw [overlay_concat, lookup_setPath_of_ne hname]
      refine ⟨fun w hw => ?_, fun hmem => ?_⟩
      · rcases lastUnder_concat.mp hw with hlast | ⟨-, hbefore⟩
        · cases hlast
          exact absurd rfl heq
        · exact ihset w hbefore
      · exact ihkeep fun hbefore => hmem (by simp [hbefore])

/-- Every layer sets its keys over the merged ones before it. -/
def SetKeys (layers : List SettingsTable) : Prop :=
  ∀ before above after, layers = before ++ above :: after → SetsKeys (ofLayers before) above

theorem SetKeys.concat (h : SetKeys layers) (ht : SetsKeys (ofLayers layers) t) :
    SetKeys (layers ++ [t]) := by
  intro before above after heq
  rcases Keyed.concat_eq_split_iff.mp heq with ⟨rfl, rfl, -⟩ | ⟨rest, hlayers, -⟩
  · exact ht
  · exact h before above rest hlayers

theorem setKeys_of_plain (h : ∀ t ∈ layers, Plain t) : SetKeys layers := by
  rintro before above after rfl
  exact (h above (by simp)).setsKeys _

theorem ofLayers_concat (layers : List SettingsTable) (t : SettingsTable) :
    ofLayers (layers ++ [t]) = overlay (ofLayers layers) t :=
  List.foldl_concat ..

/-- The value of a key in the last layer that has the key. -/
def LastValue (key : String) (v : Setting) (layers : List SettingsTable) : Prop :=
  LastTold (fun t key v => LastUnder key v t) key v layers

/-- What the layers leave under the key of a parameter comes from the last layer that has it. -/
theorem lookup_ofLayers (h : SetKeys layers) (hkey : key ∈ planKeys) :
    (∀ v, LastValue key v layers → ∃ w, (ofLayers layers).lookup key = some w ∧ v.Alike w) ∧
    ((∀ t ∈ layers, key ∉ keys t) → (ofLayers layers).lookup key = none) := by
  induction layers using List.reverseRecOn with
  | nil => exact ⟨fun v ⟨before, t, after, heq, _⟩ => by simp at heq, fun _ => rfl⟩
  | append_singleton layers t ih =>
    obtain ⟨ihset, ihkeep⟩ := ih fun before above after heq =>
      h before above (after ++ [t]) (by simp [heq])
    obtain ⟨hset, hkeep⟩ := h layers t [] rfl key hkey
    rw [ofLayers_concat]
    refine ⟨fun v hv => ?_, fun hnone => ?_⟩
    · rcases Keyed.lastTold_concat.mp hv with hlast | ⟨hsilent, hbefore⟩
      · exact hset v hlast
      · have hmem : key ∉ keys t := fun hmem =>
          have ⟨w, hw⟩ := Keyed.exists_lastUnder_iff.mpr hmem
          hsilent w hw
        rw [hkeep hmem]
        exact ihset v hbefore
    · rw [hkeep (hnone t (by simp))]
      exact ihkeep fun t ht => hnone t (List.mem_append_left _ ht)

end SettingsTable
end MappingSweep
