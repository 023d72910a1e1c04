import MappingSweep.Error
import MappingSweep.Proofs.FileSystem.Reading

/-!
# Changes to files alone

Where files are written and deleted, but directories are neither made nor taken away, all paths go
on leading where they led.  Everything that is not touched is then seen as before, whether something
is there or not.
-/

namespace MappingSweep
namespace FileSystem

variable {fs fs' fs'' : FileSystem} {p : Path} {place : Place} {content : ByteArray}
  {inside wider : Place → Prop}

/-- The directories are the same, and outside the given places nothing changes at all. -/
structure ChangesFiles (inside : Place → Prop) (fs fs' : FileSystem) : Prop where
  forth : Preserves inside fs fs'
  back : Preserves inside fs' fs

theorem ChangesFiles.refl (inside : Place → Prop) (fs : FileSystem) : ChangesFiles inside fs fs :=
  ⟨.refl inside fs, .refl inside fs⟩

theorem ChangesFiles.trans (h : ChangesFiles inside fs fs') (h' : ChangesFiles inside fs' fs'') :
    ChangesFiles inside fs fs'' :=
  ⟨h.forth.trans h'.forth, h'.back.trans h.back⟩

theorem ChangesFiles.mono (h : ChangesFiles inside fs fs') (hwider : ∀ q, inside q → wider q) :
    ChangesFiles wider fs fs' :=
  ⟨h.forth.mono hwider, h.back.mono hwider⟩

theorem Preserves.changesFiles (h : Preserves inside fs fs')
    (hnew : ∀ q, fs.entryAt q ≠ some .directory → fs'.entryAt q ≠ some .directory) :
    ChangesFiles inside fs fs' :=
  ⟨h, fun q hq => by_contra fun hne => hnew q hne hq, fun q hq => (h.same q hq).symm⟩

theorem changesFiles_writeBytes (h : fs.writeBytes p content = .ok fs') :
    ChangesFiles (· = p.place) fs fs' :=
  (preserves_writeBytes h).changesFiles fun _ => ne_directory_of_writeBytes h

theorem changesFiles_removeFile (h : fs.removeFile p = .ok fs') :
    ChangesFiles (· = p.place) fs fs' :=
  (preserves_removeFile h).changesFiles fun _ => ne_directory_of_removeFile h

/-- A path with something at its end; a slash at its end asks for a directory. -/
theorem pathExists_iff : fs.pathExists p = true ↔
    fs.locate p = .ok p.place ∧ (fs.entryAt p.place).isSome = true ∧
      (p.endsWithSlash = true → fs.entryAt p.place = some .directory) := by
  unfold pathExists find
  cases hplace : fs.locate p with
  | error e => simp [bind, Except.bind, Except.isOk, Except.toBool]
  | ok place =>
    obtain rfl := locate_eq_ok hplace
    simp only [bind, Except.bind]
    cases hentry : fs.entryAt p.place with
    | none => simp [Except.isOk, Except.toBool, throw, throwThe, MonadExceptOf.throw]
    | some entry =>
      cases entry with
      | directory => simp [Except.isOk, Except.toBool, pure, Except.pure]
      | file old x =>
        cases p.endsWithSlash <;>
          simp [Except.isOk, Except.toBool, pure, Except.pure, throw, throwThe,
            MonadExceptOf.throw]

theorem pathExists_of_readBytes (h : fs.readBytes p = .ok content) : fs.pathExists p = true := by
  obtain ⟨hplace, hslash, x, hx⟩ := readBytes_eq_ok_iff.mp h
  refine pathExists_iff.mpr ⟨hplace, by rw [hx]; rfl, fun htrue => ?_⟩
  rw [hslash] at htrue
  cases htrue

theorem entryAt_of_not_pathExists (h : fs.pathExists p = false)
    (hplace : fs.locate p = .ok p.place) (hslash : p.endsWithSlash = false) :
    fs.entryAt p.place = none := by
  cases hentry : fs.entryAt p.place with
  | none => rfl
  | some entry =>
    have hexists : fs.pathExists p = true :=
      pathExists_iff.mpr ⟨hplace, by rw [hentry]; rfl, fun htrue => by simp [hslash] at htrue⟩
    rw [h] at hexists
    cases hexists

theorem readText_eq_ok_iff {text : String} : fs.readText p = .ok text ↔
    ∃ content, fs.readBytes p = .ok content ∧ String.fromUTF8? content = some text := by
  unfold readText
  cases fs.readBytes p with
  | error e => simp
  | ok content =>
    dsimp only
    split
    · rename_i found hfound
      simp [hfound]
    · rename_i hnone
      simp [hnone]

namespace ChangesFiles

variable (h : ChangesFiles inside fs fs')

include h

theorem locate_eq_ok_iff : fs'.locate p = .ok place ↔ fs.locate p = .ok place :=
  ⟨h.back.locate, h.forth.locate⟩

theorem readBytes_eq_ok_iff (hp : ¬ inside p.place) :
    fs'.readBytes p = .ok content ↔ fs.readBytes p = .ok content :=
  ⟨fun hread => h.back.readBytes hread hp, fun hread => h.forth.readBytes hread hp⟩

theorem pathExists_eq (hp : ¬ inside p.place) : fs'.pathExists p = fs.pathExists p := by
  rw [Bool.eq_iff_iff, pathExists_iff, pathExists_iff, h.locate_eq_ok_iff, h.forth.same _ hp]

theorem readText_eq_ok_iff (hp : ¬ inside p.place) {text : String} :
    fs'.readText p = .ok text ↔ fs.readText p = .ok text := by
  simp only [FileSystem.readText_eq_ok_iff, h.readBytes_eq_ok_iff hp]

end ChangesFiles

end FileSystem
end MappingSweep
