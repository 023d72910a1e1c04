import MappingSweep.Text.Blank

/-!
# Lines

A text divides into lines in exactly one way.  When texts are joined by a line feed their lines
follow each other, except that a carriage return at the end of the first text becomes part of the
ending.
-/

namespace MappingSweep
namespace Text

/-- A text and its lines.  A line ends with a line feed or with a carriage return and a line feed,
and only the last one may have no ending. -/
inductive Lines : List Char → List (List Char) → Prop where
  | none : Lines [] []
  | last {line} (hne : line ≠ []) (hline : '\n' ∉ line) : Lines line [line]
  | feed {line rest lines} (hline : '\n' ∉ line) (hreturn : line.getLast? ≠ some '\r')
      (hrest : Lines rest lines) : Lines (line ++ '\n' :: rest) (line :: lines)
  | returnFeed {line rest lines} (hline : '\n' ∉ line) (hrest : Lines rest lines) :
      Lines (line ++ '\r' :: '\n' :: rest) (line :: lines)

variable {cs line rest : List Char} {lines : List (List Char)}

/-- A character that is no part of an ending belongs to the first line. -/
theorem splitLines_cons {c : Char} (hfeed : c ≠ '\n')
    (hreturn : c = '\r' → rest.head? ≠ some '\n') :
    splitLines (c :: rest) =
      match splitLines rest with
      | [] => [[c]]
      | line :: more => (c :: line) :: more := by
  refine splitLines.eq_4 c rest hfeed fun more hc hrest => hreturn hc ?_
  rw [hrest]
  rfl

theorem splitLines_feed (hline : '\n' ∉ line) (hreturn : line.getLast? ≠ some '\r') :
    splitLines (line ++ '\n' :: rest) = line :: splitLines rest := by
  induction line with
  | nil => simp [splitLines]
  | cons c line ih =>
    rw [List.mem_cons, not_or] at hline
    cases line with
    | nil =>
      rw [List.getLast?_singleton, ne_eq, Option.some_inj] at hreturn
      rw [List.cons_append, splitLines_cons (Ne.symm hline.1) fun h => absurd h hreturn]
      simp [splitLines]
    | cons d line =>
      rw [List.getLast?_cons_cons] at hreturn
      have hd : d ≠ '\n' := fun h => hline.2 (h ▸ List.mem_cons_self)
      rw [List.cons_append, splitLines_cons (Ne.symm hline.1) fun _ => by simpa using hd,
        ih hline.2 hreturn]

theorem splitLines_returnFeed (hline : '\n' ∉ line) :
    splitLines (line ++ '\r' :: '\n' :: rest) = line :: splitLines rest := by
  induction line with
  | nil => simp [splitLines]
  | cons c line ih =>
    rw [List.mem_cons, not_or] at hline
    have hhead : (line ++ '\r' :: '\n' :: rest).head? ≠ some '\n' := by
      cases line with
      | nil => simp
      | cons d line =>
        have hd : d ≠ '\n' := fun h => hline.2 (h ▸ List.mem_cons_self)
        simpa using hd
    rw [List.cons_append, splitLines_cons (Ne.symm hline.1) fun _ => hhead, ih hline.2]

theorem splitLines_last (hne : line ≠ []) (hline : '\n' ∉ line) : splitLines line = [line] := by
  induction line with
  | nil => exact absurd rfl hne
  | cons c line ih =>
    rw [List.mem_cons, not_or] at hline
    have hhead : line.head? ≠ some '\n' := fun h => hline.2 (List.mem_of_head? h)
    rw [splitLines_cons (Ne.symm hline.1) fun _ => hhead]
    cases line with
    | nil => rfl
    | cons d line => rw [ih (List.cons_ne_nil d line) hline.2]

theorem Lines.splitLines_eq (h : Lines cs lines) : splitLines cs = lines := by
  induction h with
  | none => rfl
  | last hne hline => exact splitLines_last hne hline
  | feed hline hreturn _ ih => rw [splitLines_feed hline hreturn, ih]
  | returnFeed hline _ ih => rw [splitLines_returnFeed hline, ih]

/-- A character in front of a text belongs to its first line. -/
theorem Lines.cons {c : Char} (h : Lines rest (line :: lines)) (hfeed : c ≠ '\n')
    (hreturn : c = '\r' → rest.head? ≠ some '\n') : Lines (c :: rest) ((c :: line) :: lines) := by
  have hmem : ∀ {cs : List Char}, '\n' ∉ cs → '\n' ∉ c :: cs := by
    intro cs hcs
    rw [List.mem_cons, not_or]
    exact ⟨Ne.symm hfeed, hcs⟩
  cases h with
  | last _ hline => exact .last (List.cons_ne_nil _ _) (hmem hline)
  | feed hline hlast hrest =>
    refine .feed (hmem hline) ?_ hrest
    cases line with
    | nil =>
      rw [List.getLast?_singleton, ne_eq, Option.some_inj]
      exact fun h => hreturn h rfl
    | cons d line =>
      rw [List.getLast?_cons_cons]
      exact hlast
  | returnFeed hline hrest => exact .returnFeed (hmem hline) hrest

theorem lines_splitLines (cs : List Char) : Lines cs (splitLines cs) := by
  fun_induction splitLines cs with
  | case1 => exact .none
  | case2 rest ih => exact .feed List.not_mem_nil (by simp) ih
  | case3 rest ih => exact .returnFeed List.not_mem_nil ih
  | case4 c rest hfeed hreturn hnil ih =>
    rw [hnil] at ih
    cases ih
    refine .last (List.cons_ne_nil _ _) ?_
    rw [List.mem_singleton]
    exact Ne.symm hfeed
  | case5 c rest hfeed hreturn line more hsome ih =>
    rw [hsome] at ih
    refine ih.cons hfeed ?_
    rintro rfl hhead
    obtain ⟨more, rfl⟩ := List.head?_eq_some_iff.mp hhead
    exact hreturn more rfl rfl

theorem splitLines_eq_iff : splitLines cs = lines ↔ Lines cs lines :=
  ⟨fun h => h ▸ lines_splitLines cs, Lines.splitLines_eq⟩

/-- What is read line by line and does not depend on carriage returns at the end of a line is read
of two texts joined by a line feed as of one after the other. -/
theorem filterMap_splitLines_append {α : Type} {read : List Char → Option α}
    (hempty : read [] = none) (hreturn : ∀ line, read (line ++ ['\r']) = read line)
    (cs ds : List Char) :
    (splitLines (cs ++ '\n' :: ds)).filterMap read =
      (splitLines cs).filterMap read ++ (splitLines ds).filterMap read := by
  have hjoined : ∀ {cs lines}, Lines cs lines →
      (splitLines (cs ++ '\n' :: ds)).filterMap read =
        lines.filterMap read ++ (splitLines ds).filterMap read := by
    intro cs lines h
    induction h with
    | none => rw [List.nil_append, splitLines, List.filterMap_cons_none hempty]; rfl
    | @last line hne hline =>
      by_cases hlast : line.getLast? = some '\r'
      · obtain ⟨front, rfl⟩ := List.getLast?_eq_some_iff.mp hlast
        have hfront : '\n' ∉ front := fun h => hline (List.mem_append_left _ h)
        rw [List.append_assoc, List.singleton_append, splitLines_returnFeed hfront,
          List.filterMap_cons, List.filterMap_cons, hreturn]
        cases read front <;> rfl
      · rw [splitLines_feed hline hlast, List.filterMap_cons, List.filterMap_cons]
        cases read line <;> rfl
    | @feed line rest lines hline hlast _ ih =>
      rw [List.append_assoc, List.cons_append, splitLines_feed hline hlast, List.filterMap_cons,
        List.filterMap_cons, ih]
      cases read line <;> rfl
    | @returnFeed line rest lines hline _ ih =>
      rw [List.append_assoc, List.cons_append, List.cons_append, splitLines_returnFeed hline,
        List.filterMap_cons, List.filterMap_cons, ih]
      cases read line <;> rfl
  exact hjoined (lines_splitLines cs)

/-- The second list has further members of this kind in it, at any places. -/
inductive Inserts {α : Type} (p : α → Prop) : List α → List α → Prop where
  | nil : Inserts p [] []
  | keep {x xs ys} (h : Inserts p xs ys) : Inserts p (x :: xs) (x :: ys)
  | insert {y xs ys} (hy : p y) (h : Inserts p xs ys) : Inserts p xs (y :: ys)

variable {α β : Type} {p : α → Prop} {before after inserted xs ys : List α}

theorem Inserts.refl (xs : List α) : Inserts p xs xs := by
  induction xs with
  | nil => exact .nil
  | cons x xs ih => exact .keep ih

theorem Inserts.between (h : ∀ x ∈ inserted, p x) (before after : List α) :
    Inserts p (before ++ after) (before ++ (inserted ++ after)) := by
  induction before with
  | cons x before ih => exact .keep ih
  | nil =>
    induction inserted with
    | nil => exact .refl after
    | cons x inserted ih =>
      obtain ⟨hx, hinserted⟩ := List.forall_mem_cons.mp h
      exact .insert hx (ih hinserted)

/-- Nothing is read of what has been inserted. -/
theorem Inserts.filterMap_eq {read : α → Option β} (h : Inserts p xs ys)
    (hsilent : ∀ x, p x → read x = none) : ys.filterMap read = xs.filterMap read := by
  induction h with
  | nil => rfl
  | keep _ ih => rw [List.filterMap_cons, List.filterMap_cons, ih]
  | insert hy _ ih => rw [List.filterMap_cons_none (hsilent _ hy), ih]

end Text
end MappingSweep
