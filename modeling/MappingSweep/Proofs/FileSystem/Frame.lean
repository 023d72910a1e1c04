import MappingSweep.Proofs.FileSystem.Path

/-!
# What the operations change

Every operation changes the place to which its path leads, and the removal of a directory what is
below it.  Making directories with their parents only adds directories where nothing was.
-/

namespace MappingSweep
namespace FileSystem

variable {fs fs' fs'' : FileSystem} {p : Path} {place q : Place} {content : ByteArray}

theorem isRoot_eq_false_of_none (h : fs.entryAt q = none) : isRoot q = false := by
  unfold entryAt at h
  split at h
  · cases h
  · rename_i hroot
    simpa using hroot

theorem isRoot_eq_false_of_file {x : Bool} (h : fs.entryAt q = some (.file content x)) :
    isRoot q = false := by
  unfold entryAt at h
  split at h
  · cases h
  · rename_i hroot
    simpa using hroot

theorem entryAt_of_isRoot (h : isRoot q = true) : fs.entryAt q = some .directory := by
  rw [entryAt, if_pos h]

theorem lookup_filter_of_pos {α β : Type} [BEq α] [LawfulBEq α] {keep : α → Bool} {k : α}
    (h : keep k = true) (l : List (α × β)) :
    (l.filter fun e => keep e.1).lookup k = l.lookup k := by
  induction l with
  | nil => rfl
  | cons e l ih =>
    obtain ⟨k', v⟩ := e
    by_cases hk : k = k'
    · subst hk
      simp [h]
    · have hne : (k == k') = false := by simpa using hk
      by_cases hkeep : keep k' = true
      · simp [hkeep, List.lookup_cons, hne, ih]
      · simp [hkeep, List.lookup_cons, hne, ih]

theorem lookup_filter_of_neg {α β : Type} [BEq α] [LawfulBEq α] {keep : α → Bool} {k : α}
    (h : keep k = false) (l : List (α × β)) : (l.filter fun e => keep e.1).lookup k = none := by
  induction l with
  | nil => rfl
  | cons e l ih =>
    obtain ⟨k', v⟩ := e
    by_cases hkeep : keep k' = true
    · have hne : (k == k') = false := by
        rw [beq_eq_false_iff_ne]
        rintro rfl
        simp [h] at hkeep
      simp [hkeep, List.lookup_cons, hne, ih]
    · simp [hkeep, ih]

theorem entryAt_filter (keep : Place → Bool) (h : isRoot q = false) :
    entryAt ⟨fs.entries.filter fun e => keep e.1⟩ q = if keep q then fs.entryAt q else none := by
  simp only [entryAt, h, Bool.false_eq_true, if_false]
  by_cases hkeep : keep q = true
  · rw [if_pos hkeep, lookup_filter_of_pos hkeep]
  · rw [if_neg hkeep, lookup_filter_of_neg (by simpa using hkeep)]

theorem entryAt_removeTree_of_outside (h : ¬ place <+: q) :
    (fs.removeTree place).entryAt q = fs.entryAt q := by
  cases hroot : isRoot q with
  | true => rw [entryAt_of_isRoot hroot, entryAt_of_isRoot hroot]
  | false =>
    have hkeep : place.isPrefixOf q = false := by
      rw [← Bool.not_eq_true, List.isPrefixOf_iff_prefix]
      exact h
    rw [removeTree, entryAt_filter (fun r => !place.isPrefixOf r) hroot]
    simp [hkeep]

theorem entryAt_removeTree_of_below (h : place <+: q) (hroot : isRoot q = false) :
    (fs.removeTree place).entryAt q = none := by
  rw [removeTree, entryAt_filter (fun r => !place.isPrefixOf r) hroot]
  simp [List.isPrefixOf_iff_prefix.mpr h]

theorem entryAt_extend_self {old : ByteArray} {x : Bool}
    (h : fs.entryAt place = some (.file old x)) :
    (fs.extend place content).entryAt place = some (.file (old ++ content) x) := by
  rw [extend, h]
  exact entryAt_set_self _ _ (isRoot_eq_false_of_file h)

theorem entryAt_extend_of_ne (h : place ≠ q) :
    (fs.extend place content).entryAt q = fs.entryAt q := by
  unfold extend
  split
  · exact entryAt_set_of_ne _ _ h
  · rfl

theorem writeBytes_eq_ok (h : fs.writeBytes p content = .ok fs') :
    ∃ x, fs' = fs.set p.place (.file content x) ∧ fs.entryAt p.place ≠ some .directory := by
  unfold writeBytes at h
  cases hplace : fs.locate p with
  | error e => rw [hplace] at h; cases h
  | ok place =>
    obtain rfl := locate_eq_ok hplace
    simp only [hplace, bind, Except.bind] at h
    cases hentry : fs.entryAt p.place with
    | none =>
      simp only [hentry] at h
      split at h
      · cases h
      · exact ⟨false, (Except.ok.inj h).symm, by simp⟩
    | some entry =>
      cases entry with
      | directory => simp only [hentry] at h; cases h
      | file old x =>
        simp only [hentry] at h
        split at h
        · cases h
        · exact ⟨x, (Except.ok.inj h).symm, by simp⟩

theorem createFile_eq_ok (h : fs.createFile p content = .ok fs') :
    fs.entryAt p.place = none ∧ ∃ x, fs' = fs.set p.place (.file content x) := by
  unfold createFile at h
  cases hplace : fs.locate p with
  | error e => rw [hplace] at h; cases h
  | ok place =>
    obtain rfl := locate_eq_ok hplace
    simp only [hplace, bind, Except.bind] at h
    split at h
    · cases h
    · rename_i hnone
      obtain ⟨x, hset, -⟩ := writeBytes_eq_ok h
      exact ⟨by simpa using hnone, x, hset⟩

theorem makeDirectory_eq_ok (h : fs.makeDirectory p = .ok fs') :
    fs.entryAt p.place = none ∧ fs' = fs.set p.place .directory := by
  unfold makeDirectory at h
  cases hplace : fs.locate p with
  | error e => rw [hplace] at h; cases h
  | ok place =>
    obtain rfl := locate_eq_ok hplace
    simp only [hplace, bind, Except.bind] at h
    split at h
    · cases h
    · rename_i hnone
      exact ⟨by simpa using hnone, (Except.ok.inj h).symm⟩

theorem find_eq_ok {entry : Entry} (h : fs.find p = .ok (place, entry)) :
    place = p.place ∧ fs.entryAt p.place = some entry := by
  unfold find at h
  cases hplace : fs.locate p with
  | error e => rw [hplace] at h; cases h
  | ok place' =>
    obtain rfl := locate_eq_ok hplace
    simp only [hplace, bind, Except.bind] at h
    cases hentry : fs.entryAt p.place with
    | none => simp only [hentry] at h; cases h
    | some entry' =>
      cases entry' with
      | directory =>
        simp only [hentry] at h
        cases h
        exact ⟨rfl, rfl⟩
      | file old x =>
        simp only [hentry] at h
        split at h
        · cases h
        · cases h
          exact ⟨rfl, rfl⟩

theorem readBytes_eq_ok (h : fs.readBytes p = .ok content) :
    ∃ x, fs.entryAt p.place = some (.file content x) := by
  unfold readBytes at h
  cases hfind : fs.find p with
  | error e => rw [hfind] at h; cases h
  | ok found =>
    obtain ⟨place, entry⟩ := found
    simp only [hfind, bind, Except.bind] at h
    cases entry with
    | directory => cases h
    | file old x =>
      cases h
      exact ⟨x, (find_eq_ok hfind).2⟩

theorem removeDirectory_eq_ok (h : fs.removeDirectory p = .ok fs') :
    fs' = fs.removeTree p.place := by
  unfold removeDirectory at h
  cases hfind : fs.find p with
  | error e => rw [hfind] at h; cases h
  | ok found =>
    obtain ⟨place, entry⟩ := found
    simp only [hfind, bind, Except.bind] at h
    cases entry with
    | directory =>
      obtain rfl := (find_eq_ok hfind).1
      exact (Except.ok.inj h).symm
    | file old x => cases h

theorem removeFile_eq_ok (h : fs.removeFile p = .ok fs') (hq : p.place ≠ q) :
    fs'.entryAt q = fs.entryAt q := by
  unfold removeFile at h
  cases hfind : fs.find p with
  | error e => rw [hfind] at h; cases h
  | ok found =>
    obtain ⟨place, entry⟩ := found
    simp only [hfind, bind, Except.bind] at h
    cases entry with
    | directory => cases h
    | file old x =>
      obtain rfl := (find_eq_ok hfind).1
      obtain rfl := (Except.ok.inj h).symm
      cases hroot : isRoot q with
      | true => rw [entryAt_of_isRoot hroot, entryAt_of_isRoot hroot]
      | false =>
        rw [entryAt_filter (fun r => decide (r ≠ p.place)) hroot, if_pos]
        simpa using Ne.symm hq

theorem entryAt_removeFile_self (h : fs.removeFile p = .ok fs') : fs'.entryAt p.place = none := by
  unfold removeFile at h
  cases hfind : fs.find p with
  | error e => rw [hfind] at h; cases h
  | ok found =>
    obtain ⟨place, entry⟩ := found
    simp only [hfind, bind, Except.bind] at h
    obtain ⟨rfl, hentry⟩ := find_eq_ok hfind
    cases entry with
    | directory => cases h
    | file old x =>
      obtain rfl := (Except.ok.inj h).symm
      rw [entryAt_filter (fun r => decide (r ≠ p.place)) (isRoot_eq_false_of_file hentry), if_neg]
      simp

theorem ne_directory_of_writeBytes (h : fs.writeBytes p content = .ok fs')
    (hq : fs.entryAt q ≠ some .directory) : fs'.entryAt q ≠ some .directory := by
  obtain ⟨x, rfl, hentry⟩ := writeBytes_eq_ok h
  by_cases hplace : p.place = q
  · subst hplace
    cases hroot : isRoot p.place with
    | true => exact absurd (entryAt_of_isRoot hroot) hentry
    | false =>
      rw [entryAt_set_self _ _ hroot]
      exact fun heq => by cases heq
  · rwa [entryAt_set_of_ne _ _ hplace]

theorem ne_directory_of_removeFile (h : fs.removeFile p = .ok fs')
    (hq : fs.entryAt q ≠ some .directory) : fs'.entryAt q ≠ some .directory := by
  by_cases hplace : p.place = q
  · rw [← hplace, entryAt_removeFile_self h]
    exact fun heq => by cases heq
  · rwa [removeFile_eq_ok h hplace]

/-! ## Growth -/

/-- Outside the given places nothing changes, but that directories appear where nothing was. -/
def Grows (inside : Place → Prop) (fs fs' : FileSystem) : Prop :=
  ∀ q, ¬ inside q → fs'.entryAt q = fs.entryAt q ∨
    (fs.entryAt q = none ∧ fs'.entryAt q = some .directory)

variable {inside : Place → Prop}

theorem Grows.refl (inside : Place → Prop) (fs : FileSystem) : Grows inside fs fs :=
  fun _ _ => .inl rfl

theorem Grows.trans (h : Grows inside fs fs') (h' : Grows inside fs' fs'') :
    Grows inside fs fs'' := by
  intro q hq
  rcases h q hq with hsame | ⟨hnone, hdir⟩
  · rcases h' q hq with hsame' | ⟨hnone', hdir'⟩
    · exact .inl (hsame'.trans hsame)
    · exact .inr ⟨hsame ▸ hnone', hdir'⟩
  · rcases h' q hq with hsame' | ⟨hnone', -⟩
    · exact .inr ⟨hnone, hsame'.trans hdir⟩
    · rw [hdir] at hnone'
      cases hnone'

theorem Grows.mono {wider : Place → Prop} (h : Grows inside fs fs')
    (hwider : ∀ q, inside q → wider q) : Grows wider fs fs' :=
  fun q hq => h q fun hin => hq (hwider q hin)

/-- What is there stays. -/
theorem Grows.entryAt_eq {entry : Entry} (h : Grows inside fs fs') (hq : ¬ inside q)
    (hentry : fs.entryAt q = some entry) : fs'.entryAt q = some entry := by
  rcases h q hq with hsame | ⟨hnone, -⟩
  · exact hsame.trans hentry
  · rw [hentry] at hnone
    cases hnone

theorem grows_of_same (h : ∀ q, ¬ inside q → fs'.entryAt q = fs.entryAt q) :
    Grows inside fs fs' :=
  fun q hq => .inl (h q hq)

theorem grows_set (entry : Entry) (h : inside place) : Grows inside fs (fs.set place entry) := by
  apply grows_of_same
  intro q hq
  apply entryAt_set_of_ne
  rintro rfl
  exact hq h

theorem grows_makeDirectory (h : fs.makeDirectory p = .ok fs') :
    Grows (fun _ => False) fs fs' := by
  obtain ⟨hnone, rfl⟩ := makeDirectory_eq_ok h
  intro q _
  by_cases hq : p.place = q
  · subst hq
    exact .inr ⟨hnone, entryAt_set_self fs _ (isRoot_eq_false_of_none hnone)⟩
  · exact .inl (entryAt_set_of_ne fs _ hq)

theorem grows_ensureDirectory (h : fs.ensureDirectory p = .ok fs') :
    Grows (fun _ => False) fs fs' := by
  unfold ensureDirectory at h
  split at h
  · rename_i hmake
    cases h
    exact grows_makeDirectory hmake
  · split at h
    · cases h
      exact Grows.refl _ fs
    · cases h

theorem grows_makeDirectories (fuel : Nat) (fs : FileSystem) (p : Path) :
    Grows (fun _ => False) fs (makeDirectories fuel fs p).2 := by
  induction fuel generalizing fs p with
  | zero => exact Grows.refl _ fs
  | succ fuel ih =>
    unfold makeDirectories
    split
    · exact Grows.refl _ fs
    · split
      · rename_i hmake
        exact grows_makeDirectory hmake
      · split
        · exact Grows.refl _ fs
        · rename_i parent _
          have hparent := ih fs parent
          split
          · rename_i hfailed
            rwa [hfailed] at hparent
          · rename_i hmade
            rw [hmade] at hparent
            split
            · rename_i hensure
              exact hparent.trans (grows_ensureDirectory hensure)
            · exact hparent
      · split <;> exact Grows.refl _ fs

theorem grows_createDirectories (fs : FileSystem) (p : Path) :
    Grows (fun _ => False) fs (fs.createDirectories p).2 :=
  grows_makeDirectories _ fs p

end FileSystem
end MappingSweep
