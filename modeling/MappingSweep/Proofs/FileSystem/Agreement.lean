import MappingSweep.Proofs.FileSystem.Creation
import MappingSweep.Trial.Result

/-!
# What an operation looks at

An operation looks at the stations of its path alone.  On file systems that agree on these it
answers the same, and makes the same changes.
-/

namespace MappingSweep
namespace FileSystem

variable {ε α : Type} {fs gs : FileSystem} {p : Path} {here q : Place} {cs : List String}

theorem descend_congr {c : String} (h : fs.entryAt here = gs.entryAt here) :
    fs.descend here c = gs.descend here c := by
  unfold descend notDirectory isDirectory
  rw [h]

theorem foldlM_descend_congr (h : ∀ q ∈ Place.passed here cs, fs.entryAt q = gs.entryAt q) :
    cs.foldlM fs.descend here = cs.foldlM gs.descend here := by
  induction cs generalizing here with
  | nil => rfl
  | cons c cs ih =>
    rw [List.foldlM_cons, List.foldlM_cons, ← descend_congr (h here List.mem_cons_self)]
    cases hstep : fs.descend here c with
    | error e => rfl
    | ok next =>
      obtain ⟨-, rfl⟩ := descend_eq_ok hstep
      exact ih fun q hq => h q (List.mem_cons_of_mem here hq)

theorem locate_congr (h : ∀ q ∈ p.stations, fs.entryAt q = gs.entryAt q) :
    fs.locate p = gs.locate p := by
  rw [locate, locate, ← foldlM_descend_congr h]
  cases hwalk : p.components.foldlM fs.descend p.start with
  | error e => rfl
  | ok place =>
    have hplace : place = p.place := foldlM_descend_eq_ok hwalk
    have hsame : fs.entryAt place = gs.entryAt place := hplace ▸ h _ p.place_mem_stations
    have hdir : fs.isDirectory place = gs.isDirectory place := by
      rw [isDirectory, isDirectory, hsame]
    have hfault : fs.notDirectory place = gs.notDirectory place := by
      rw [notDirectory, notDirectory, hsame]
    simp only [bind, Except.bind, hdir, hfault]

theorem find_congr (h : ∀ q ∈ p.stations, fs.entryAt q = gs.entryAt q) : fs.find p = gs.find p := by
  rw [find, find, ← locate_congr h]
  cases hlocate : fs.locate p with
  | error e => rfl
  | ok place =>
    obtain rfl := locate_eq_ok hlocate
    simp only [bind, Except.bind, h _ p.place_mem_stations]

theorem loadText_congr (h : ∀ q ∈ p.stations, fs.entryAt q = gs.entryAt q) :
    fs.loadText p = gs.loadText p := by
  rw [loadText, loadText, readText, readText, readBytes, readBytes, find_congr h]

/-- The action answers the same from both file systems and makes the same changes. -/
structure ActsAlike (a : Action ε FileSystem α) (fs gs : FileSystem) : Prop where
  result : (a fs).1 = (a gs).1
  entries : ∀ q, fs.entryAt q = gs.entryAt q → (a fs).2.entryAt q = (a gs).2.entryAt q

theorem ActsAlike.mapError {ε' : Type} {a : Action ε FileSystem α} (h : ActsAlike a fs gs)
    (f : ε → ε') : ActsAlike (a.mapError f) fs gs := by
  constructor
  · exact congrArg (Except.mapError f) h.result
  · exact h.entries

/-- An action that looks and changes alike, and another one after it. -/
theorem ActsAlike.andThen {β : Type} {a : Action ε FileSystem α}
    {f : α → Action ε FileSystem β} (h : ActsAlike a fs gs)
    (hf : ∀ x, ActsAlike (f x) (a fs).2 (a gs).2) : ActsAlike (a.andThen f) fs gs := by
  have hresult := h.result
  have hentries := h.entries
  constructor
  all_goals
    simp only [Action.andThen]
    cases hfs : a fs with
    | mk result fs' =>
      cases hgs : a gs with
      | mk result' gs' =>
        rw [hfs, hgs] at hresult hentries
        obtain rfl : result = result' := hresult
        cases result with
        | error e => first | rfl | exact hentries
        | ok x =>
          have hnext := hf x
          rw [hfs, hgs] at hnext
          first | exact hnext.result | exact fun q hq => hnext.entries q (hentries q hq)

theorem actsAlike_look {f : FileSystem → Except ε α} (h : f fs = f gs) :
    ActsAlike (.look f) fs gs :=
  ⟨h, fun _ h => h⟩

/-- A change that fails alike, and otherwise does the same to both. -/
theorem actsAlike_change {f : FileSystem → Except ε FileSystem} (edit : FileSystem → FileSystem)
    (hedit : ∀ q, fs.entryAt q = gs.entryAt q → (edit fs).entryAt q = (edit gs).entryAt q)
    (h : (∃ e, f fs = .error e ∧ f gs = .error e) ∨ (f fs = .ok (edit fs) ∧ f gs = .ok (edit gs))) :
    ActsAlike (.change f) fs gs := by
  rcases h with ⟨e, hfs, hgs⟩ | ⟨hfs, hgs⟩
  · constructor <;> simp only [Action.change, hfs, hgs]
    exact fun _ h => h
  · constructor <;> simp only [Action.change, hfs, hgs]
    exact hedit

theorem entryAt_set_congr (place : Place) (entry : Entry) (h : fs.entryAt q = gs.entryAt q) :
    (fs.set place entry).entryAt q = (gs.set place entry).entryAt q := by
  cases hroot : isRoot q with
  | true => rw [entryAt_of_isRoot hroot, entryAt_of_isRoot hroot]
  | false =>
    by_cases hq : place = q
    · subst hq
      rw [entryAt_set_self fs entry hroot, entryAt_set_self gs entry hroot]
    · rw [entryAt_set_of_ne fs entry hq, entryAt_set_of_ne gs entry hq, h]

theorem entryAt_removeTree_congr (place : Place) (h : fs.entryAt q = gs.entryAt q) :
    (fs.removeTree place).entryAt q = (gs.removeTree place).entryAt q := by
  cases hroot : isRoot q with
  | true => rw [entryAt_of_isRoot hroot, entryAt_of_isRoot hroot]
  | false =>
    by_cases hq : place <+: q
    · rw [entryAt_removeTree_of_below hq hroot, entryAt_removeTree_of_below hq hroot]
    · rw [entryAt_removeTree_of_outside hq, entryAt_removeTree_of_outside hq, h]

theorem actsAlike_removeDirectory (h : ∀ q ∈ p.stations, fs.entryAt q = gs.entryAt q) :
    ActsAlike (.change (·.removeDirectory p)) fs gs := by
  apply actsAlike_change (·.removeTree p.place) fun q => entryAt_removeTree_congr p.place
  simp only [removeDirectory, ← find_congr h]
  cases hfind : fs.find p with
  | error e => exact .inl ⟨e, rfl, rfl⟩
  | ok found =>
    obtain ⟨place, entry⟩ := found
    obtain ⟨rfl, -⟩ := find_eq_ok hfind
    cases entry with
    | directory => exact .inr ⟨rfl, rfl⟩
    | file content x => exact .inl ⟨.notADirectory, rfl, rfl⟩

theorem writeBytes_congr (content : ByteArray)
    (h : ∀ q ∈ p.stations, fs.entryAt q = gs.entryAt q) :
    (∃ e, fs.writeBytes p content = .error e ∧ gs.writeBytes p content = .error e) ∨
      ∃ entry, fs.writeBytes p content = .ok (fs.set p.place entry) ∧
        gs.writeBytes p content = .ok (gs.set p.place entry) := by
  simp only [writeBytes, ← locate_congr h]
  cases hlocate : fs.locate p with
  | error e => exact .inl ⟨e, rfl, rfl⟩
  | ok place =>
    obtain rfl := locate_eq_ok hlocate
    simp only [bind, Except.bind, ← h _ p.place_mem_stations]
    cases hentry : fs.entryAt p.place with
    | none =>
      cases p.endsWithSlash with
      | true => exact .inl ⟨.isADirectory, rfl, rfl⟩
      | false => exact .inr ⟨_, rfl, rfl⟩
    | some entry =>
      cases entry with
      | directory => exact .inl ⟨.isADirectory, rfl, rfl⟩
      | file old x =>
        cases p.endsWithSlash with
        | true => exact .inl ⟨.notADirectory, rfl, rfl⟩
        | false => exact .inr ⟨_, rfl, rfl⟩

theorem actsAlike_ensureDirectory (h : ∀ q ∈ p.stations, fs.entryAt q = gs.entryAt q) :
    ActsAlike (.change (·.ensureDirectory p)) fs gs := by
  have hplace := h _ p.place_mem_stations
  have hlocate' := locate_congr h
  cases hlocate : fs.locate p with
  | error e =>
    rw [hlocate] at hlocate'
    apply actsAlike_change id fun _ h => h
    exact .inl ⟨e, ensureDirectory_of_failed hlocate, ensureDirectory_of_failed hlocate'.symm⟩
  | ok place =>
    obtain rfl := locate_eq_ok hlocate
    rw [hlocate] at hlocate'
    cases hentry : fs.entryAt p.place with
    | none =>
      rw [hentry] at hplace
      apply actsAlike_change (·.set p.place .directory) fun q => entryAt_set_congr _ _
      exact .inr ⟨ensureDirectory_of_missing hlocate hentry,
        ensureDirectory_of_missing hlocate'.symm hplace.symm⟩
    | some entry =>
      rw [hentry] at hplace
      apply actsAlike_change id fun _ h => h
      cases entry with
      | directory =>
        exact .inr ⟨ensureDirectory_of_directory hlocate hentry,
          ensureDirectory_of_directory hlocate'.symm hplace.symm⟩
      | file content x =>
        exact .inl ⟨.fileExists, ensureDirectory_of_file hlocate ⟨content, x, hentry⟩,
          ensureDirectory_of_file hlocate'.symm ⟨content, x, hplace.symm⟩⟩

theorem actsAlike_makeDirectories (fuel : Nat)
    (h : ∀ q ∈ p.stations, fs.entryAt q = gs.entryAt q) :
    ActsAlike (makeDirectories fuel · p) fs gs := by
  induction fuel generalizing p with
  | zero => exact ⟨rfl, fun _ hq => hq⟩
  | succ fuel ih =>
    by_cases hempty : p.text.isEmpty = true
    · constructor
      · simp only [makeDirectories, if_pos hempty]
      · simp only [makeDirectories, if_pos hempty]
        exact fun _ hq => hq
    have hnonempty : p.text.isEmpty = false := by simpa using hempty
    have hlocate := locate_congr h
    by_cases hmissing : fs.locate p = .error .notFound
    · rw [hmissing] at hlocate
      cases hparent : p.parent? with
      | none =>
        have hfs := makeDirectories_of_orphan fuel hnonempty hmissing hparent
        have hgs := makeDirectories_of_orphan fuel hnonempty hlocate.symm hparent
        constructor
        · rw [hfs, hgs]
        · rw [hfs, hgs]
          exact fun _ hq => hq
      | some parent =>
        have hways : ∀ q ∈ parent.stations, fs.entryAt q = gs.entryAt q := by
          intro q hq
          rw [stations_parent hparent] at hq
          exact h q (List.dropLast_subset _ hq)
        have hmade := ih hways
        have hwhole := hmade.andThen (f := fun _ => Action.change (·.ensureDirectory p)) fun _ =>
          actsAlike_ensureDirectory fun q hq => hmade.entries q (h q hq)
        constructor
        · simp only [makeDirectories_of_missing fuel hnonempty hmissing hparent,
            makeDirectories_of_missing fuel hnonempty hlocate.symm hparent]
          exact hwhole.result
        · simp only [makeDirectories_of_missing fuel hnonempty hmissing hparent,
            makeDirectories_of_missing fuel hnonempty hlocate.symm hparent]
          exact hwhole.entries
    · have hfound : gs.locate p ≠ .error .notFound := hlocate ▸ hmissing
      have hensure := actsAlike_ensureDirectory h
      constructor
      · simp only [makeDirectories_of_found fuel hnonempty hmissing,
          makeDirectories_of_found fuel hnonempty hfound]
        exact hensure.result
      · simp only [makeDirectories_of_found fuel hnonempty hmissing,
          makeDirectories_of_found fuel hnonempty hfound]
        exact hensure.entries

theorem actsAlike_createDirectories (h : ∀ q ∈ p.stations, fs.entryAt q = gs.entryAt q) :
    ActsAlike (·.createDirectories p) fs gs :=
  actsAlike_makeDirectories _ h

end FileSystem
end MappingSweep
