import MappingSweep.Proofs.Isolation

/-!
# What lasts from a turn on

Until a certain step of it a thread may undo what stands in its part of the state; from that step on
it lets everything stand that is there.  Whatever is seen to be new while threads take turns was
made at that step or later, and lasts until all threads have ended.
-/

namespace MappingSweep

variable {σ α β : Type}

/-- One state, of which the invariant holds. -/
def Agreed (inv : σ → Prop) (s g : σ) : Prop :=
  s = g ∧ inv s

theorem agreed_self {inv : σ → Prop} {s : σ} (h : inv s) : Agreed inv s s :=
  ⟨rfl, h⟩

/-- The thread takes steps of one kind until it turns, and steps of another kind after that.  It may
end before it turns. -/
inductive Thread.Turns (inv : σ → Prop) (before after : σ → σ → Prop) : Thread σ α → Prop
  | turned {t : Thread σ α} (h : t.Isolated (Agreed inv) after) : Turns inv before after t
  | before {change : σ → σ} {next : σ → Thread σ α}
      (hstep : ∀ s, inv s → inv (change s) ∧ before s (change s))
      (hnext : ∀ s, inv s → Turns inv before after (next s)) :
      Turns inv before after (.step change next)
  | turn {change : σ → σ} {next : σ → Thread σ α} (hstep : ∀ s, inv s → inv (change s))
      (hnext : ∀ s, inv s → (next s).Isolated (Agreed inv) after) :
      Turns inv before after (.step change next)

namespace Thread

variable {inv : σ → Prop} {before after : σ → σ → Prop}

theorem Isolated.mono {alike moves moves' : σ → σ → Prop} {t : Thread σ α}
    (h : t.Isolated alike moves) (hmoves : ∀ s s', moves s s' → moves' s s') :
    t.Isolated alike moves' := by
  induction h with
  | ended x => exact .ended x
  | step halike hstep hsame _ ih =>
    exact .step halike (fun s g hs => hmoves _ _ (hstep s g hs)) hsame ih

theorem Turns.andThen {t : Thread σ β} {f : β → Thread σ α} (h : t.Turns inv before after)
    (hf : ∀ x, (f x).Isolated (Agreed inv) after) : (t.andThen f).Turns inv before after := by
  induction h with
  | turned h => exact .turned (h.andThen hf)
  | before hstep _ ih => exact .before hstep ih
  | turn hstep hnext => exact .turn hstep fun s hs => (hnext s hs).andThen hf

end Thread

namespace Task

variable {ε ε' : Type} {inv : σ → Prop} {before after : σ → σ → Prop}

def Turns (inv : σ → Prop) (before after : σ → σ → Prop) (t : Task ε σ α) : Prop :=
  Thread.Turns inv before after t.run

end Task

namespace Pool

variable {inv old : σ → Prop} {before after : σ → σ → Prop} {background : σ → σ} {i : Nat}
  {p : Pool σ α}

/-- All threads take steps of the one kind only. -/
structure Turned (inv : σ → Prop) (after : σ → σ → Prop) (p : Pool σ α) : Prop where
  holds : inv p.state
  threads : ∀ t ∈ p.threads, t.Isolated (Agreed inv) after

/-- One thread may still have to turn, and as long as it has, nothing new is there. -/
structure Turning (inv : σ → Prop) (before after : σ → σ → Prop) (old : σ → Prop) (i : Nat)
    (p : Pool σ α) : Prop where
  holds : inv p.state
  others : ∀ j t, j ≠ i → p.threads[j]? = some t → t.Isolated (Agreed inv) after
  own : ∀ t, p.threads[i]? = some t →
    t.Isolated (Agreed inv) after ∨ (old p.state ∧ t.Turns inv before after)

theorem Turned.take (h : Turned inv after p) (hrefl : ∀ s, after s s)
    (hbackground : ∀ s, inv s → inv (background s) ∧ after s (background s)) (turn : Turn) :
    Turned inv after (p.take background turn) ∧
      after p.state (p.take background turn).state := by
  cases turn with
  | background =>
    obtain ⟨hinv, hafter⟩ := hbackground p.state h.holds
    exact ⟨⟨hinv, h.threads⟩, hafter⟩
  | thread i =>
    unfold Pool.take Pool.advance
    dsimp only
    split
    · rename_i change next hthread
      cases h.threads _ (List.mem_of_getElem? hthread) with
      | step halike hmoves _ hnext =>
        have hagreed := agreed_self h.holds
        refine ⟨⟨(halike _ _ hagreed).2, ?_⟩, hmoves _ _ hagreed⟩
        intro t ht
        rcases List.mem_or_eq_of_mem_set ht with ht | rfl
        · exact h.threads t ht
        · exact hnext _ _ hagreed
    · exact ⟨h, hrefl _⟩

theorem Turned.play (h : Turned inv after p) (hrefl : ∀ s, after s s)
    (htrans : ∀ s s' s'', after s s' → after s' s'' → after s s'')
    (hbackground : ∀ s, inv s → inv (background s) ∧ after s (background s))
    (turns : List Turn) :
    Turned inv after (p.play background turns) ∧
      after p.state (p.play background turns).state := by
  induction turns generalizing p with
  | nil => exact ⟨h, hrefl _⟩
  | cons turn turns ih =>
    obtain ⟨hturned, hfirst⟩ := h.take hrefl hbackground turn
    obtain ⟨hlast, hrest⟩ := ih hturned
    exact ⟨hlast, htrans _ _ _ hfirst hrest⟩

theorem after_runAll (hrefl : ∀ s, after s s)
    (htrans : ∀ s s' s'', after s s' → after s' s'' → after s s'') {ts : List (Thread σ α)}
    (h : ∀ t ∈ ts, t.Isolated (Agreed inv) after) {s : σ} (hs : inv s) :
    inv (Thread.runAll ts s).2 ∧ after s (Thread.runAll ts s).2 := by
  induction ts generalizing s with
  | nil => exact ⟨hs, hrefl s⟩
  | cons t ts ih =>
    have ht := h t List.mem_cons_self
    have hfirst := ht.run_moves (agreed_self hs) hrefl htrans
    obtain ⟨hlast, hrest⟩ :=
      ih (fun u hu => h u (List.mem_cons_of_mem t hu)) (ht.run (agreed_self hs)).2.2
    exact ⟨hlast, htrans _ _ _ hfirst hrest⟩

theorem Turned.finish (h : Turned inv after p) (hrefl : ∀ s, after s s)
    (htrans : ∀ s s' s'', after s s' → after s' s'' → after s s'')
    (hbackground : ∀ s, inv s → inv (background s) ∧ after s (background s))
    (turns : List Turn) :
    inv (p.finish background turns).2 ∧ after p.state (p.finish background turns).2 := by
  obtain ⟨hmid, hplay⟩ := h.play hrefl htrans hbackground turns
  obtain ⟨hlast, hrest⟩ := after_runAll hrefl htrans hmid.threads hmid.holds
  exact ⟨hlast, htrans _ _ _ hplay hrest⟩

theorem Turning.take (h : Turning inv before after old i p)
    (hbefore : ∀ s s', before s s' → old s → old s') (hafter : ∀ s s', after s s' → old s → old s')
    (hbackground : ∀ s, inv s → inv (background s) ∧ after s (background s)) (turn : Turn) :
    Turning inv before after old i (p.take background turn) := by
  -- a step of another thread leaves old what is old
  have hkept : ∀ s, after p.state s → ∀ t, p.threads[i]? = some t →
      t.Isolated (Agreed inv) after ∨ (old s ∧ t.Turns inv before after) := by
    intro s hs t ht
    rcases h.own t ht with hturned | ⟨hold, hturns⟩
    · exact .inl hturned
    · exact .inr ⟨hafter _ _ hs hold, hturns⟩
  cases turn with
  | background =>
    obtain ⟨hinv, hmoves⟩ := hbackground p.state h.holds
    exact ⟨hinv, h.others, hkept _ hmoves⟩
  | thread j =>
    unfold Pool.take Pool.advance
    dsimp only
    split
    case h_2 => exact h
    rename_i change next hthread
    have hagreed := agreed_self h.holds
    by_cases hj : j = i
    · subst hj
      have hstays : ∀ k t, k ≠ j → (p.threads.set j (next p.state))[k]? = some t →
          t.Isolated (Agreed inv) after := by
        intro k t hk ht
        rw [List.getElem?_set_ne (Ne.symm hk)] at ht
        exact h.others k t hk ht
      have hnow : ∀ t, (p.threads.set j (next p.state))[j]? = some t → next p.state = t := by
        intro t ht
        rcases getElem?_set_cases ht with ⟨-, heq⟩ | ⟨hne, -⟩
        · exact heq
        · exact absurd rfl hne
      rcases h.own _ hthread with hturned | ⟨hold, hturns⟩
      · cases hturned with
        | step halike _ _ hnext =>
          refine ⟨(halike _ _ hagreed).2, hstays, fun t ht => .inl ?_⟩
          rw [← hnow t ht]
          exact hnext _ _ hagreed
      · cases hturns with
        | turned hturned =>
          cases hturned with
          | step halike _ _ hnext =>
            refine ⟨(halike _ _ hagreed).2, hstays, fun t ht => .inl ?_⟩
            rw [← hnow t ht]
            exact hnext _ _ hagreed
        | before hstep hnext =>
          obtain ⟨hinv, hmoves⟩ := hstep _ h.holds
          refine ⟨hinv, hstays, fun t ht => .inr ⟨hbefore _ _ hmoves hold, ?_⟩⟩
          rw [← hnow t ht]
          exact hnext _ h.holds
        | turn hstep hnext =>
          refine ⟨hstep _ h.holds, hstays, fun t ht => .inl ?_⟩
          rw [← hnow t ht]
          exact hnext _ h.holds
    · cases h.others j _ hj hthread with
      | step halike hmoves _ hnext =>
        refine ⟨(halike _ _ hagreed).2, ?_, ?_⟩
        · intro k t hk ht
          rcases getElem?_set_cases ht with ⟨-, rfl⟩ | ⟨-, ht⟩
          · exact hnext _ _ hagreed
          · exact h.others k t hk ht
        · intro t ht
          rw [List.getElem?_set_ne hj] at ht
          exact hkept _ (hmoves _ _ hagreed) t ht

theorem Turning.play (h : Turning inv before after old i p)
    (hbefore : ∀ s s', before s s' → old s → old s') (hafter : ∀ s s', after s s' → old s → old s')
    (hbackground : ∀ s, inv s → inv (background s) ∧ after s (background s))
    (turns : List Turn) : Turning inv before after old i (p.play background turns) := by
  induction turns generalizing p with
  | nil => exact h
  | cons turn turns ih => exact ih (h.take hbefore hafter hbackground turn)

end Pool
end MappingSweep
