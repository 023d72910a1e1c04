import MappingSweep.Proofs.Row.Log

/-!
# A row log is created once and only grows

Row logs are created and rows are added on one path, in any order.  A request is granted and
remembered, or it is refused and leaves everything as it is.  Whatever is asked for, at most one row
log is created, and only where no file was.  From then on exactly the rows that are as wide as its
header are accepted, and the file holds the header and the accepted rows in their order.
-/

namespace MappingSweep

inductive RowRequest where
  | create (commands : List String)
  | append (row : Row)
deriving DecidableEq

inductive RowRefusal where
  | noLog
  | failed (e : SweepError)
deriving DecidableEq, Repr

structure RowSession where
  path : Path
  files : FileSystem
  /-- The log to which rows are added. -/
  log : Option RowLog := none
  granted : List RowRequest := []

namespace RowSession

def start (path : Path) (files : FileSystem) : RowSession where
  path
  files

def create (s : RowSession) (commands : List String) : Except RowRefusal RowSession :=
  match RowLog.create s.path commands s.files with
  | .ok (log, files) =>
    .ok { s with files, log := some log, granted := s.granted ++ [.create commands] }
  | .error e => .error (.failed e)

def append (s : RowSession) (row : Row) : Except RowRefusal RowSession :=
  match s.log with
  | none => .error .noLog
  | some log =>
    match log.append row s.files with
    | .ok files => .ok { s with files, granted := s.granted ++ [.append row] }
    | .error e => .error (.failed e)

def request (s : RowSession) : RowRequest → Except RowRefusal RowSession
  | .create commands => s.create commands
  | .append row => s.append row

def step (s : RowSession) (r : RowRequest) : RowSession :=
  (s.request r).toOption.getD s

def run (s : RowSession) (requests : List RowRequest) : RowSession :=
  requests.foldl step s

variable {path : Path} {files : FileSystem} {commands : List String} {rows : List Row} {row : Row}
  {log : RowLog} {s s' : RowSession}

/-- A log with these rows was created on the path, and nothing else was granted. -/
structure Logged (path : Path) (commands : List String) (rows : List Row) (log : RowLog)
    (s : RowSession) : Prop where
  log_eq : s.log = some log
  made : log = ⟨path, path.place, (Row.header commands).length⟩
  granted : s.granted = .create commands :: rows.map .append
  holds : log.Holds commands rows s.files
  readable : ∃ content, s.files.readBytes path = .ok content

/-- Either nothing was granted and nothing was touched, or a log was created. -/
inductive Sound (path : Path) (files : FileSystem) (s : RowSession) : Prop
  | untouched (hpath : s.path = path) (hfiles : s.files = files) (hlog : s.log = none)
      (hgranted : s.granted = [])
  | logged {commands : List String} {rows : List Row} {log : RowLog} (hpath : s.path = path)
      (h : s.Logged path commands rows log)

theorem step_of_ok {r : RowRequest} (h : s.request r = .ok s') : s.step r = s' := by
  rw [step, h]
  rfl

theorem step_of_error {r : RowRequest} {e : RowRefusal} (h : s.request r = .error e) :
    s.step r = s := by
  rw [step, h]
  rfl

theorem create_eq_ok (h : s.create commands = .ok s') :
    ∃ log files, RowLog.create s.path commands s.files = .ok (log, files) ∧
      s' = { s with files, log := some log, granted := s.granted ++ [.create commands] } := by
  unfold create at h
  split at h
  · rename_i log files hcreate
    exact ⟨log, files, hcreate, (Except.ok.inj h).symm⟩
  · cases h

theorem exists_create_iff (s : RowSession) (commands : List String) :
    (∃ s', s.create commands = .ok s') ↔
      s.files.locate s.path = .ok s.path.place ∧ s.path.endsWithSlash = false ∧
        s.files.entryAt s.path.place = none := by
  rw [← RowLog.exists_create_iff s.path commands s.files]
  constructor
  · rintro ⟨s', hs'⟩
    obtain ⟨log, files, hcreate, -⟩ := create_eq_ok hs'
    exact ⟨_, hcreate⟩
  · rintro ⟨⟨log, files⟩, hcreate⟩
    rw [create, hcreate]
    exact ⟨_, rfl⟩

/-- No log is created where a file is. -/
theorem missing_of_create (hpath : s.path = path) (h : s.create commands = .ok s') :
    s.files.entryAt path.place = none := by
  obtain ⟨log, files, hcreate, -⟩ := create_eq_ok h
  rw [← hpath]
  exact (RowLog.create_eq_ok hcreate).2.1

theorem sound_create (hpath : s.path = path) (hgranted : s.granted = [])
    (h : s.create commands = .ok s') : Sound path files s' := by
  obtain ⟨log, made, hcreate, rfl⟩ := create_eq_ok h
  rw [hpath] at hcreate
  have hlogged : Logged path commands [] log
      { s with files := made, log := some log, granted := s.granted ++ [.create commands] } :=
    ⟨rfl, (RowLog.create_eq_ok hcreate).1, by rw [hgranted]; rfl, RowLog.holds_create hcreate,
      RowLog.exists_readBytes_create hcreate⟩
  exact .logged hpath hlogged

theorem append_of_no_log (hlog : s.log = none) (row : Row) : s.append row = .error .noLog := by
  rw [append, hlog]

theorem append_eq_ok (h : s.append row = .ok s') :
    ∃ files, s' = { s with files, granted := s.granted ++ [.append row] } := by
  unfold append at h
  split at h
  · cases h
  · split at h
    · exact ⟨_, (Except.ok.inj h).symm⟩
    · cases h

namespace Logged

variable (h : s.Logged path commands rows log)

include h

theorem fits_iff (row : Row) : log.Fits row ↔ row.commands.length = commands.length := by
  rw [RowLog.Fits, h.made, Row.length_record, Row.length_header, Nat.add_left_cancel_iff]

theorem not_missing : s.files.entryAt path.place ≠ none := by
  obtain ⟨x, hx⟩ := h.holds
  rw [h.made] at hx
  rw [hx]
  exact fun heq => nomatch heq

theorem readBytes_eq : s.files.readBytes path =
    .ok (Csv.encodeAll (Row.header commands :: rows.map Row.record)).toUTF8 := by
  obtain ⟨content, hread⟩ := h.readable
  obtain ⟨hplace, hslash, -⟩ := FileSystem.readBytes_eq_ok_iff.mp hread
  obtain ⟨x, hx⟩ := h.holds
  rw [h.made] at hx
  exact FileSystem.readBytes_eq_ok_iff.mpr ⟨hplace, hslash, x, hx⟩

theorem append_of_fits (hrow : log.Fits row) : ∃ s', s.append row = .ok s' ∧ s'.path = s.path ∧
    s'.Logged path commands (rows ++ [row]) log := by
  have hadd := RowLog.append_of_fits hrow s.files
  refine ⟨{ s with
    files := s.files.extend log.place (Csv.encode row.record).toUTF8
    granted := s.granted ++ [.append row] }, ?_, rfl, ?_⟩
  · simp only [append, h.log_eq, hadd]
  · have hholds := h.holds.extend row
    refine ⟨h.log_eq, h.made, ?_, hholds, ?_⟩
    · simp only [h.granted, List.map_append, List.map_singleton, List.cons_append]
    · obtain ⟨content, hread⟩ := h.readable
      obtain ⟨hplace, hslash, -⟩ := FileSystem.readBytes_eq_ok_iff.mp hread
      obtain ⟨x, hx⟩ := hholds
      rw [h.made] at hx
      have hkept := (log.preserves_extend s.files (Csv.encode row.record).toUTF8).locate hplace
      rw [h.made] at hkept ⊢
      exact ⟨_, FileSystem.readBytes_eq_ok_iff.mpr ⟨hkept, hslash, x, hx⟩⟩

theorem append_of_not_fits (hrow : ¬ log.Fits row) :
    s.append row = .error (.failed (log.refusal row)) := by
  simp only [append, h.log_eq, RowLog.append_of_not_fits hrow]

end Logged

/-! ## Steps and runs -/

/-- What is granted is remembered. -/
theorem granted_of_ok {r : RowRequest} (h : s.request r = .ok s') :
    s'.granted = s.granted ++ [r] := by
  cases r with
  | create commands =>
    obtain ⟨log, files, -, rfl⟩ := create_eq_ok h
    rfl
  | append row =>
    obtain ⟨files, rfl⟩ := append_eq_ok h
    rfl

theorem sound_start (path : Path) (files : FileSystem) : Sound path files (start path files) :=
  .untouched rfl rfl rfl rfl

namespace Sound

theorem step (h : Sound path files s) (r : RowRequest) : Sound path files (s.step r) := by
  cases hr : s.request r with
  | error e => rwa [step_of_error hr]
  | ok s' =>
    rw [step_of_ok hr]
    cases h with
    | untouched hpath hfiles hlog hgranted =>
      cases r with
      | create commands => exact sound_create hpath hgranted hr
      | append row => cases (append_of_no_log hlog row).symm.trans hr
    | @logged commands rows log hpath h =>
      cases r with
      | create commands => exact absurd (missing_of_create hpath hr) h.not_missing
      | append row =>
        by_cases hrow : log.Fits row
        · obtain ⟨made, hmade, hsame, hlogged⟩ := h.append_of_fits hrow
          cases hmade.symm.trans hr
          exact .logged (hsame.trans hpath) hlogged
        · cases (h.append_of_not_fits hrow).symm.trans hr

theorem run (h : Sound path files s) (requests : List RowRequest) :
    Sound path files (s.run requests) := by
  induction requests generalizing s with
  | nil => exact h
  | cons r requests ih => exact ih (h.step r)

/-- A log is created where no file is and one can be, and only if none was created before. -/
theorem exists_create_iff (h : Sound path files s) (commands : List String) :
    (∃ s', s.create commands = .ok s') ↔
      s.granted = [] ∧ s.files.locate path = .ok path.place ∧ path.endsWithSlash = false ∧
        s.files.entryAt path.place = none := by
  cases h with
  | untouched hpath hfiles hlog hgranted =>
    rw [RowSession.exists_create_iff, hpath, eq_true hgranted, true_and]
  | logged hpath h =>
    constructor
    · rintro ⟨s', hs'⟩
      exact absurd (missing_of_create hpath hs') h.not_missing
    · rintro ⟨hgranted, -⟩
      cases h.granted.symm.trans hgranted

/-- A row is accepted exactly when there is a log and the row has as many counts. -/
theorem exists_append_iff (h : Sound path files s) (row : Row) :
    (∃ s', s.append row = .ok s') ↔
      ∃ commands, .create commands ∈ s.granted ∧ row.commands.length = commands.length := by
  cases h with
  | untouched hpath hfiles hlog hgranted => simp [append_of_no_log hlog, hgranted]
  | @logged commands rows log hpath h =>
    have hcreated : ∀ other, .create other ∈ s.granted ↔ other = commands := by
      intro other
      simp [h.granted]
    simp only [hcreated, exists_eq_left, ← h.fits_iff]
    constructor
    · rintro ⟨s', hs'⟩
      by_contra hrow
      cases (h.append_of_not_fits hrow).symm.trans hs'
    · intro hrow
      obtain ⟨s', hs', -⟩ := h.append_of_fits hrow
      exact ⟨s', hs'⟩

theorem files_eq (h : Sound path files s) :
    s.granted = [] ∧ s.files = files ∨
      ∃ (commands : List String) (rows : List Row),
        s.granted = .create commands :: rows.map .append ∧
        s.files.readBytes path =
          .ok (Csv.encodeAll (Row.header commands :: rows.map Row.record)).toUTF8 := by
  cases h with
  | untouched hpath hfiles hlog hgranted => exact .inl ⟨hgranted, hfiles⟩
  | logged hpath h => exact .inr ⟨_, _, h.granted, h.readBytes_eq⟩

end Sound

/-- After any requests on a path, the next one changes nothing if it is refused and is remembered
if it is granted.  A log is created only where no file is and only once, a row is accepted exactly
when there is a log and the row has a count for each of its commands, and the file is as it was at
first or holds the header and the accepted rows in their order. -/
theorem created_once_and_grown (path : Path) (files : FileSystem) (requests : List RowRequest)
    (next : RowRequest) :
    let s := (start path files).run requests
    let s' := s.step next
    (∀ e, s.request next = .error e → s' = s) ∧
    (∀ made, s.request next = .ok made → s'.granted = s.granted ++ [next]) ∧
    (∀ commands, next = .create commands → ((∃ made, s.request next = .ok made) ↔
      s.granted = [] ∧ s.files.locate path = .ok path.place ∧ path.endsWithSlash = false ∧
        s.files.entryAt path.place = none)) ∧
    (∀ row, next = .append row → ((∃ made, s.request next = .ok made) ↔
      ∃ commands, .create commands ∈ s.granted ∧ row.commands.length = commands.length)) ∧
    (s'.granted = [] ∧ s'.files = files ∨
      ∃ (commands : List String) (rows : List Row),
        s'.granted = .create commands :: rows.map .append ∧
        s'.files.readBytes path =
          .ok (Csv.encodeAll (Row.header commands :: rows.map Row.record)).toUTF8) := by
  intro s s'
  have hsound : Sound path files s := (sound_start path files).run requests
  refine ⟨fun e he => step_of_error he, ?_, ?_, ?_, (hsound.step next).files_eq⟩
  · intro made hmade
    rw [show s' = made from step_of_ok hmade]
    exact granted_of_ok hmade
  · rintro commands rfl
    exact hsound.exists_create_iff commands
  · rintro row rfl
    exact hsound.exists_append_iff row

end RowSession
end MappingSweep
