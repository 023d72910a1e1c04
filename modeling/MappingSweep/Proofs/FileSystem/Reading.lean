import MappingSweep.Proofs.FileSystem.Frame

/-!
# Reading what was written

A written file reads as it was written.  It goes on doing so while the file stays and no directory
turns into something else.
-/

namespace MappingSweep
namespace FileSystem

variable {fs fs' fs'' : FileSystem} {p : Path} {place q : Place} {content : ByteArray}

/-- Directories stay directories, and outside the given places nothing changes at all. -/
structure Preserves (inside : Place → Prop) (fs fs' : FileSystem) : Prop where
  directory : ∀ q, fs.entryAt q = some .directory → fs'.entryAt q = some .directory
  same : ∀ q, ¬ inside q → fs'.entryAt q = fs.entryAt q

variable {inside : Place → Prop}

theorem Preserves.refl (inside : Place → Prop) (fs : FileSystem) : Preserves inside fs fs :=
  ⟨fun _ h => h, fun _ _ => rfl⟩

theorem Preserves.trans (h : Preserves inside fs fs') (h' : Preserves inside fs' fs'') :
    Preserves inside fs fs'' :=
  ⟨fun q hq => h'.directory q (h.directory q hq),
    fun q hq => (h'.same q hq).trans (h.same q hq)⟩

theorem Preserves.mono {wider : Place → Prop} (h : Preserves inside fs fs')
    (hwider : ∀ q, inside q → wider q) : Preserves wider fs fs' :=
  ⟨h.directory, fun q hq => h.same q fun hin => hq (hwider q hin)⟩

theorem preserves_set {entry : Entry} (h : fs.entryAt place ≠ some .directory) :
    Preserves (· = place) fs (fs.set place entry) := by
  have hsame : ∀ q, ¬ q = place → (fs.set place entry).entryAt q = fs.entryAt q :=
    fun q hq => entryAt_set_of_ne fs entry (Ne.symm hq)
  refine ⟨fun q hq => ?_, hsame⟩
  rw [hsame q, hq]
  rintro rfl
  exact h hq

theorem preserves_writeBytes (h : fs.writeBytes p content = .ok fs') :
    Preserves (· = p.place) fs fs' := by
  obtain ⟨x, rfl, hentry⟩ := writeBytes_eq_ok h
  exact preserves_set hentry

theorem preserves_removeFile (h : fs.removeFile p = .ok fs') :
    Preserves (· = p.place) fs fs' := by
  have hsame : ∀ q, ¬ q = p.place → fs'.entryAt q = fs.entryAt q :=
    fun q hq => removeFile_eq_ok h (Ne.symm hq)
  refine ⟨fun q hq => ?_, hsame⟩
  rw [hsame q, hq]
  rintro rfl
  unfold removeFile at h
  cases hfind : fs.find p with
  | error e => rw [hfind] at h; cases h
  | ok found =>
    obtain ⟨place, entry⟩ := found
    simp only [hfind, bind, Except.bind] at h
    obtain ⟨rfl, hentry⟩ := find_eq_ok hfind
    rw [hq] at hentry
    cases hentry
    cases h

theorem Preserves.foldlM_descend (h : Preserves inside fs fs') {here place : Place}
    {cs : List String} (hwalk : cs.foldlM fs.descend here = .ok place) :
    cs.foldlM fs'.descend here = .ok place := by
  induction cs generalizing here with
  | nil => exact hwalk
  | cons c cs ih =>
    rw [List.foldlM_cons] at hwalk ⊢
    cases hstep : fs.descend here c with
    | error e => rw [hstep] at hwalk; cases hwalk
    | ok next =>
      have hdir : fs'.isDirectory here = fs.isDirectory here := by
        have hhere := (descend_eq_ok hstep).1
        rw [hhere]
        simp only [isDirectory, decide_eq_true_eq] at hhere ⊢
        exact h.directory here hhere
      have hstep' : fs'.descend here c = .ok next := by
        have hhere := (descend_eq_ok hstep).1
        rw [← hstep]
        simp only [descend, hdir, hhere, not_true_eq_false, if_false]
      rw [hstep] at hwalk
      rw [hstep']
      exact ih hwalk

theorem Preserves.locate (h : Preserves inside fs fs') (hplace : fs.locate p = .ok place) :
    fs'.locate p = .ok place := by
  unfold FileSystem.locate at hplace ⊢
  split at hplace
  · cases hplace
  rename_i hnul
  split at hplace
  · cases hplace
  rename_i hempty
  split at hplace
  · cases hplace
  rename_i hlong
  rw [if_neg hnul, if_neg hempty, if_neg hlong]
  cases hwalk : p.components.foldlM fs.descend p.start with
  | error e => rw [hwalk] at hplace; cases hplace
  | ok last =>
    have hend : fs.isDirectory last = true → fs'.isDirectory last = true := by
      simp only [isDirectory, decide_eq_true_eq]
      exact h.directory last
    rw [hwalk] at hplace
    rw [h.foldlM_descend hwalk]
    simp only [bind, Except.bind] at hplace ⊢
    split at hplace
    · cases hplace
    · rename_i hstays
      rw [if_neg fun hleft => hstays ⟨hleft.1, fun hdir => hleft.2 (hend hdir)⟩]
      exact hplace

theorem readBytes_eq_ok_iff : fs.readBytes p = .ok content ↔
    fs.locate p = .ok p.place ∧ p.endsWithSlash = false ∧
      ∃ x, fs.entryAt p.place = some (.file content x) := by
  constructor
  · intro h
    obtain ⟨x, hx⟩ := readBytes_eq_ok h
    unfold readBytes find at h
    cases hplace : fs.locate p with
    | error e => rw [hplace] at h; cases h
    | ok place =>
      obtain rfl := locate_eq_ok hplace
      simp only [hplace, bind, Except.bind, hx] at h
      refine ⟨rfl, ?_, x, hx⟩
      cases hslash : p.endsWithSlash with
      | false => rfl
      | true => rw [hslash] at h; cases h
  · rintro ⟨hplace, hslash, x, hx⟩
    simp only [readBytes, find, hplace, bind, Except.bind, hx, hslash]
    rfl

theorem Preserves.readBytes (h : Preserves inside fs fs') (hread : fs.readBytes p = .ok content)
    (hp : ¬ inside p.place) : fs'.readBytes p = .ok content := by
  obtain ⟨hplace, hslash, x, hx⟩ := readBytes_eq_ok_iff.mp hread
  exact readBytes_eq_ok_iff.mpr ⟨h.locate hplace, hslash, x, (h.same _ hp).trans hx⟩

theorem readBytes_writeBytes (h : fs.writeBytes p content = .ok fs') :
    fs'.readBytes p = .ok content := by
  have hpreserves := preserves_writeBytes h
  obtain ⟨x, hset, hentry⟩ := writeBytes_eq_ok h
  unfold writeBytes at h
  cases hplace : fs.locate p with
  | error e => rw [hplace] at h; cases h
  | ok place =>
    obtain rfl := locate_eq_ok hplace
    have hslash : p.endsWithSlash = false := by
      cases hslash : p.endsWithSlash with
      | false => rfl
      | true =>
        simp only [hplace, bind, Except.bind, hslash, if_true] at h
        split at h <;> cases h
    have hroot : isRoot p.place = false := by
      cases hroot : isRoot p.place with
      | false => rfl
      | true => exact absurd (entryAt_of_isRoot hroot) hentry
    refine readBytes_eq_ok_iff.mpr ⟨hpreserves.locate hplace, hslash, x, ?_⟩
    rw [hset, entryAt_set_self _ _ hroot]

end FileSystem
end MappingSweep
