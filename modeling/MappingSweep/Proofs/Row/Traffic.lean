import MappingSweep.Proofs.Row.Funnel
import MappingSweep.Row.Traffic

/-!
# One writer for many senders

However the senders' rows and the writer's turns fall between each other, the file holds a first
part of what was sent.  In the end it holds all rows if all of them fit, and otherwise those that
were sent before the first one that does not.
-/

namespace MappingSweep
namespace Traffic

variable {log : RowLog} {commands : List String} {senders : List (List Row)} {c : Traffic}

/-- What was sent, by whom, and what the funnel made of it. -/
structure Sound (log : RowLog) (commands : List String) (senders : List (List Row))
    (c : Traffic) : Prop where
  carries : Funnel.Carries log commands c.rows c.funnel c.files
  order : ∀ i, c.rowsOf i ++ c.waiting[i]?.getD [] = senders[i]?.getD []
  count : c.sent.length + c.waiting.flatten.length = senders.flatten.length

theorem length_flatten_set {waiting : List (List Row)} {i : Nat} {row : Row} {rest : List Row}
    (h : waiting[i]? = some (row :: rest)) :
    (waiting.set i rest).flatten.length + 1 = waiting.flatten.length := by
  induction waiting generalizing i with
  | nil => simp at h
  | cons rows waiting ih =>
    cases i with
    | zero =>
      rw [List.getElem?_cons_zero] at h
      cases h
      simp only [List.set_cons_zero, List.flatten_cons, List.length_append, List.length_cons]
      omega
    | succ i =>
      rw [List.getElem?_cons_succ] at h
      have hrest := ih h
      simp only [List.set_cons_succ, List.flatten_cons, List.length_append]
      omega

theorem sound_start {path : Path} {fs fs' : FileSystem}
    (h : RowLog.create path commands fs = .ok (log, fs')) (senders : List (List Row)) :
    Sound log commands senders (start log fs' senders) where
  carries := Funnel.carries_create h
  order _ := rfl
  count := Nat.zero_add _

theorem Sound.send (h : Sound log commands senders c) (sender : Nat) :
    Sound log commands senders (c.send sender) := by
  unfold Traffic.send
  split
  · rename_i row rest hwaiting
    obtain ⟨hlt, -⟩ := List.getElem?_eq_some_iff.mp hwaiting
    refine ⟨?_, ?_, ?_⟩
    · simp only [rows, List.map_append, List.map_singleton]
      cases hsend : c.funnel.send row with
      | ok f => exact h.carries.send hsend
      | error e => exact h.carries.send_refused hsend
    · intro i
      rw [← h.order i]
      by_cases hi : sender = i
      · subst hi
        simp [rowsOf, hwaiting, List.getElem?_set_self hlt]
      · simp [rowsOf, hi, List.getElem?_set_ne hi]
    · rw [← h.count, ← length_flatten_set hwaiting]
      simp only [List.length_append, List.length_singleton]
      omega
  · exact h

theorem Sound.step (h : Sound log commands senders c) (event : FunnelEvent) :
    Sound log commands senders (c.step event) := by
  cases event with
  | send sender => exact h.send sender
  | take => exact ⟨h.carries.take, h.order, h.count⟩

theorem Sound.run (h : Sound log commands senders c) (events : List FunnelEvent) :
    Sound log commands senders (c.run events) := by
  induction events generalizing c with
  | nil => exact h
  | cons event events ih => exact ih (h.step event)

theorem waiting_eq_nil (h : c.isDone = true) (i : Nat) : c.waiting[i]?.getD [] = [] := by
  cases hi : c.waiting[i]? with
  | none => rfl
  | some rows =>
    have hall := List.all_eq_true.mp h rows (List.mem_of_getElem? hi)
    rw [List.isEmpty_iff] at hall
    exact hall

theorem Sound.rowsOf_eq (h : Sound log commands senders c) (hdone : c.isDone = true) (i : Nat) :
    c.rowsOf i = senders[i]?.getD [] := by
  have horder := h.order i
  rwa [waiting_eq_nil hdone, List.append_nil] at horder

theorem Sound.length_sent (h : Sound log commands senders c) (hdone : c.isDone = true) :
    c.rows.length = senders.flatten.length := by
  have hnil : c.waiting.flatten = [] := by
    rw [List.flatten_eq_nil_iff]
    intro rows hrows
    have hempty := List.all_eq_true.mp hdone rows hrows
    exact List.isEmpty_iff.mp hempty
  rw [← h.count, hnil, List.length_nil, Nat.add_zero, rows, List.length_map]

theorem Sound.mem_rows (h : Sound log commands senders c) (hdone : c.isDone = true)
    {own : List Row} (hown : own ∈ senders) {row : Row} (hrow : row ∈ own) : row ∈ c.rows := by
  obtain ⟨i, hi⟩ := List.mem_iff_getElem?.mp hown
  have hmine : row ∈ c.rowsOf i := by
    rw [h.rowsOf_eq hdone, hi]
    exact hrow
  obtain ⟨entry, hentry, rfl⟩ := List.mem_map.mp hmine
  exact List.mem_map_of_mem (List.mem_filter.mp hentry).1

/-- The file always holds the header and a first part of the rows in the order in which they were
sent.  When all senders are done, closing the funnel either answers how many rows there were, with
all of them in the file, or fails at the first row that is not as wide as the header, with the rows
before it in the file. -/
theorem table_of_run {path : Path} {fs fs' : FileSystem}
    (hcreate : RowLog.create path commands fs = .ok (log, fs')) (senders : List (List Row))
    (events : List FunnelEvent) :
    let c := (start log fs' senders).run events
    let header := Row.header commands
    (∃ written, written <+: c.rows ∧
      c.files.HoldsTable path.place (header :: written.map Row.record)) ∧
    (c.isDone = true →
      (∀ i, c.rowsOf i = senders[i]?.getD []) ∧
      let closed := c.funnel.finish c.files
      ((∀ own ∈ senders, ∀ row ∈ own, row.record.length = header.length) ∧
          closed.1 = .ok senders.flatten.length ∧
          closed.2.HoldsTable path.place (header :: c.rows.map Row.record) ∨
        ∃ before row after, c.rows = before ++ row :: after ∧
          (∀ other ∈ before, other.record.length = header.length) ∧
          row.record.length ≠ header.length ∧
          closed.1 = .error (.io path (.rowWidth row.record.length header.length)) ∧
          closed.2.HoldsTable path.place (header :: before.map Row.record))) := by
  intro c header
  have hsound : Sound log commands senders c := (sound_start hcreate senders).run events
  have hlog := (RowLog.create_eq_ok hcreate).1
  have hplace : log.place = path.place := by rw [hlog]
  have hwidth : log.width = header.length := by rw [hlog]
  refine ⟨⟨c.rows.take c.funnel.written, List.take_prefix _ _, ?_⟩, ?_⟩
  · rw [← hplace]
    exact hsound.carries.file.holdsTable hwidth hsound.carries.fits
  · intro hdone
    refine ⟨hsound.rowsOf_eq hdone, ?_⟩
    intro closed
    obtain ⟨written, hholds, hfits, hend⟩ := hsound.carries.finish
    have htable := hholds.holdsTable hwidth hfits
    rw [hplace] at htable
    rcases hend with ⟨hall, hresult⟩ | ⟨row, after, hsplit, hmisfit, hresult⟩
    · left
      rw [hall] at htable hfits
      rw [hsound.length_sent hdone] at hresult
      refine ⟨?_, hresult, htable⟩
      intro own hown row hrow
      rw [← hwidth]
      exact hfits row (hsound.mem_rows hdone hown hrow)
    · right
      refine ⟨written, row, after, hsplit, ?_, ?_, ?_, htable⟩
      · intro other hother
        rw [← hwidth]
        exact hfits other hother
      · rw [← hwidth]
        exact hmisfit
      · rw [hlog] at hresult
        exact hresult

/-- A row with the given counts. -/
def rowOf (commands : List UInt64) : Row where
  pattern := "p"
  trace := "p.trace"
  mapping := "m"
  totalLatency := 1
  bandwidthUsage := none
  averageLatency := 1
  medianLatency := 1
  reads := 1
  writes := 0
  commands

/-- A sender whose row fits under a header with one command, and a sender whose row does not. -/
def unevenSenders : List (List Row) :=
  [[rowOf [1]], [rowOf []]]

theorem table_of_run_unevenSenders :
    let header := Row.header ["RD"]
    let log : RowLog := ⟨⟨"result.csv"⟩, ["result.csv"], 10⟩
    let files : FileSystem := ⟨[(["result.csv"], .file (Csv.encode header).toUTF8 false)]⟩
    let c := (start log files unevenSenders).run [.send 0, .send 1, .take]
    RowLog.create ⟨"result.csv"⟩ ["RD"] {} = .ok (log, files) ∧ c.isDone = true ∧
      (c.funnel.finish c.files).1.isOk = false ∧
      (c.funnel.finish c.files).2.HoldsTable ["result.csv"] [header, (rowOf [1]).record] := by
  intro header log files c
  have hcreate : RowLog.create ⟨"result.csv"⟩ ["RD"] {} = .ok (log, files) := rfl
  have hdone : c.isDone = true := rfl
  obtain ⟨-, hend⟩ := table_of_run hcreate unevenSenders [.send 0, .send 1, .take]
  obtain ⟨-, ⟨hfits, -⟩ | ⟨before, row, after, hsplit, hfits, hmisfit, hresult, htable⟩⟩ :=
    hend hdone
  · exact absurd (hfits [rowOf []] (by simp [unevenSenders]) (rowOf []) (by simp)) (by decide)
  · refine ⟨hcreate, hdone, ?_, ?_⟩
    · rw [hresult]
      rfl
    · have hsent : [rowOf [1], rowOf []] = before ++ row :: after := hsplit
      match before, hsent with
      | [], hsent => exact absurd (List.cons.inj hsent).1 fun heq => hmisfit (heq ▸ rfl)
      | [first], hsent =>
        rw [← (List.cons.inj hsent).1] at htable
        exact htable
      | _ :: second :: rest, hsent =>
        rw [List.cons_append, List.cons_append] at hsent
        have hsecond : rowOf [] = second := (List.cons.inj (List.cons.inj hsent).2).1
        have hwide := hfits second (by simp)
        rw [← hsecond] at hwide
        exact absurd hwide (by decide)

end Traffic
end MappingSweep
