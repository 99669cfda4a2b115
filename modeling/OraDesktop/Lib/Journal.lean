import Mathlib.Data.List.Infix

/-!
# Journalled procedures

A `Proc` works on a state it can only change by committing: every commit is journalled with a
label and the state it leaves, and an error ends the procedure without undoing what was committed.
A counter stands for whatever the outside supplies one value at a time, such as fresh identifiers
or clock readings.

`Traced R P m Q` says that from a state where `P` holds, the journal of `m` is a path of `R`-steps
— whether `m` succeeds or not — and that a successful end satisfies `Q`. One rule for each
operation makes it compositional. `History` is what a sequence of procedure calls leaves behind,
where a call may also be cut off between two commits.

## Main results

* `Traced.bind`, `Traced.commit`, … — the rules
* `Path.invariant` — a property every step preserves holds at the end of a path
* `History.path` — the history of traced calls is a path
-/

namespace OraDesktop.Journal

open List

/-- How a procedure ends: its result, the state, the counter and what it committed, in order. -/
structure Outcome (σ ω ε α : Type) where
  result : Except ε α
  state : σ
  supply : Nat
  journal : List (ω × σ)

/-- A procedure over states `σ` with commit labels `ω` and errors `ε`. -/
def Proc (σ ω ε α : Type) := σ → Nat → Outcome σ ω ε α

namespace Proc

variable {σ ω ε α β : Type}

/-- Ends with a value and commits nothing. -/
protected def pure (a : α) : Proc σ ω ε α := fun s n => ⟨.ok a, s, n, []⟩

/-- Runs `m`, then `f` on its value; an error of `m` ends the whole. -/
protected def bind (m : Proc σ ω ε α) (f : α → Proc σ ω ε β) : Proc σ ω ε β := fun s n =>
  match (m s n).result with
  | .error e => ⟨.error e, (m s n).state, (m s n).supply, (m s n).journal⟩
  | .ok a =>
    let rest := f a (m s n).state (m s n).supply
    ⟨rest.result, rest.state, rest.supply, (m s n).journal ++ rest.journal⟩

instance : Monad (Proc σ ω ε) where
  pure := Proc.pure
  bind := Proc.bind

def fail (e : ε) : Proc σ ω ε α := fun s n => ⟨.error e, s, n, []⟩

def get : Proc σ ω ε σ := fun s n => ⟨.ok s, s, n, []⟩

/-- Draws the next value of the supply, so that two questions to the outside are never the same
question. -/
def draw : Proc σ ω ε Nat := fun s n => ⟨.ok n, s, n + 1, []⟩

def commit (label : ω) (t : σ) : Proc σ ω ε Unit := fun _ n => ⟨.ok (), t, n, [(label, t)]⟩

/-- Journals a label and leaves the state as it is. -/
def note (label : ω) : Proc σ ω ε Unit := fun s n => ⟨.ok (), s, n, [(label, s)]⟩

/-- Runs `m` and ends with `a` where it ends with an error. -/
def recover (m : Proc σ ω ε α) (a : α) : Proc σ ω ε α := fun s n =>
  { m s n with result := match (m s n).result with
      | .ok b => .ok b
      | .error _ => .ok a }

/-- Ends with an error unless the condition holds. -/
def ensure (c : Prop) [Decidable c] (e : ε) : Proc σ ω ε Unit := if c then Proc.pure () else fail e

def whenever (c : Prop) [Decidable c] (m : Proc σ ω ε Unit) : Proc σ ω ε Unit :=
  if c then m else Proc.pure ()

/-- Runs `m` and ends with what it ended with, value or error. -/
def attempt {ε' : Type} (m : Proc σ ω ε α) : Proc σ ω ε' (Except ε α) := fun s n =>
  ⟨.ok (m s n).result, (m s n).state, (m s n).supply, (m s n).journal⟩

theorem bind_eq (m : Proc σ ω ε α) (f : α → Proc σ ω ε β) : m >>= f = Proc.bind m f := rfl

theorem journal_bind (m : Proc σ ω ε α) (f : α → Proc σ ω ε β) (s : σ) (n : Nat) :
    ((m >>= f) s n).journal = (m s n).journal ++ match (m s n).result with
      | .error _ => []
      | .ok a => (f a (m s n).state (m s n).supply).journal := by
  rw [bind_eq, Proc.bind]
  split <;> simp

end Proc

/-! ### Paths -/

variable {σ ω ε α β ι : Type}

/-- The journal leads from the first state to the last by `R`-steps. -/
inductive Path (R : σ → ω → σ → Prop) : σ → List (ω × σ) → σ → Prop where
  | nil (s : σ) : Path R s [] s
  | cons {s t u : σ} {o : ω} {j : List (ω × σ)} (step : R s o t) (rest : Path R t j u) :
      Path R s ((o, t) :: j) u

variable {P : σ → Prop}

namespace Path

variable {R : σ → ω → σ → Prop} {s t u : σ} {j k : List (ω × σ)}

theorem append (h : Path R s j t) (h' : Path R t k u) : Path R s (j ++ k) u := by
  induction h with
  | nil s => exact h'
  | cons step _ ih => exact cons step (ih h')

theorem single {o : ω} (h : R s o t) : Path R s [(o, t)] t := cons h (nil t)

/-- A property every step preserves holds at the end of a path. -/
theorem invariant (hstep : ∀ s o t, P s → R s o t → P t) (h : Path R s j t) (hs : P s) : P t := by
  induction h with
  | nil s => exact hs
  | cons step _ ih => exact ih (hstep _ _ _ hs step)

theorem mono {R' : σ → ω → σ → Prop} (himp : ∀ s o t, R s o t → R' s o t) (h : Path R s j t) :
    Path R' s j t := by
  induction h with
  | nil s => exact nil s
  | cons step _ ih => exact cons (himp _ _ _ step) ih

theorem forall_label {p : ω → Prop} (hp : ∀ s o t, R s o t → p o) (h : Path R s j t) :
    ∀ entry ∈ j, p entry.1 := by
  induction h with
  | nil s => simp
  | cons step _ ih => exact forall_mem_cons.mpr ⟨hp _ _ _ step, ih⟩

/-- A property every step preserves holds in every state a path passes. -/
theorem forall_state (hstep : ∀ s o t, P s → R s o t → P t) (h : Path R s j t) (hs : P s) :
    ∀ u ∈ s :: j.map (·.2), P u := by
  induction h with
  | nil s => simpa using hs
  | cons step _ ih => exact forall_mem_cons.mpr ⟨hs, ih (hstep _ _ _ hs step)⟩

/-- What holds at the end held at the start, or some step is where it began. -/
theorem since {E : ω → Prop} (hstep : ∀ s o t, R s o t → P t → P s ∨ E o) (h : Path R s j t)
    (ht : P t) : P s ∨ ∃ entry ∈ j, E entry.1 := by
  induction h with
  | nil s => exact .inl ht
  | cons step rest ih =>
    rcases ih ht with hu | ⟨entry, hentry, hE⟩
    · exact (hstep _ _ _ step hu).imp_right fun hE => ⟨_, mem_cons_self, hE⟩
    · exact .inr ⟨entry, mem_cons_of_mem _ hentry, hE⟩

end Path

/-- Every entry of the journal satisfies `C`, with the state before it. -/
def Along (C : σ → ω → Prop) : σ → List (ω × σ) → Prop
  | _, [] => True
  | s, (o, t) :: rest => C s o ∧ Along C t rest

theorem along_of_forall {C : σ → ω → Prop} :
    ∀ {j : List (ω × σ)} {s : σ}, (∀ entry ∈ j, ∀ s, C s entry.1) → Along C s j
  | [], _, _ => trivial
  | _ :: _, _, h => ⟨h _ mem_cons_self _,
      along_of_forall fun _ he => h _ (mem_cons_of_mem _ he)⟩

variable {R : σ → ω → σ → Prop} {j : List (ω × σ)}

/-- A path along which `C` holds is a path of steps with `C`. -/
theorem Path.along {C : σ → ω → Prop} {s t : σ} (h : Path R s j t) (hC : Along C s j) :
    Path (fun s o t => R s o t ∧ C s o) s j t := by
  induction h with
  | nil s => exact nil s
  | cons step _ ih => exact cons ⟨step, hC.1⟩ (ih hC.2)

/-- The state a journal ends in, from where it started. -/
def lastState (s : σ) : List (ω × σ) → σ
  | [] => s
  | (_, t) :: rest => lastState t rest

theorem lastState_append (s : σ) (j k : List (ω × σ)) :
    lastState s (j ++ k) = lastState (lastState s j) k := by
  induction j generalizing s with
  | nil => rfl
  | cons entry j ih => exact ih entry.2

theorem lastState_mem (s : σ) (j : List (ω × σ)) : lastState s j ∈ s :: j.map (·.2) := by
  induction j generalizing s with
  | nil => exact mem_singleton_self s
  | cons entry j ih => exact mem_cons_of_mem s (ih entry.2)

theorem Path.lastState_eq {s t : σ} (h : Path R s j t) : lastState s j = t := by
  induction h with
  | nil s => rfl
  | cons step rest ih => exact ih

theorem Path.mem_states {s t : σ} (h : Path R s j t) : t ∈ s :: j.map (·.2) := by
  rw [← h.lastState_eq]
  exact lastState_mem s j

/-- The first part of a path is a path to the state it was in there. -/
theorem Path.of_append {t : σ} {k : List (ω × σ)} :
    ∀ {j : List (ω × σ)} {s : σ}, Path R s (j ++ k) t →
      Path R s j (lastState s j) ∧ Path R (lastState s j) k t
  | [], s, h => ⟨nil s, h⟩
  | _ :: j, s, h => by
    cases h with
    | cons step rest =>
      obtain ⟨hj, hk⟩ := Path.of_append rest
      exact ⟨cons step hj, hk⟩

/-! ### Traced procedures -/

section

variable (R : σ → ω → σ → Prop) (P : σ → Prop) (m : Proc σ ω ε α)

/-- From a state where `P` holds, the journal of `m` is a path of `R`-steps, and where `m` ends
with a value, `Q` holds of it and the last state. -/
def Traced (Q : α → σ → Prop) : Prop :=
  ∀ s n, P s → Path R s (m s n).journal (m s n).state ∧
    ∀ a, (m s n).result = .ok a → Q a (m s n).state

/-- The journal of `m` is a path of `R`-steps; nothing is said of its end. -/
abbrev Safe : Prop :=
  Traced R P m fun _ _ => True

end

variable {f : α → Proc σ ω ε β}

namespace Traced

variable {R : σ → ω → σ → Prop} {P P' : σ → Prop} {Q Q' : α → σ → Prop} {S : β → σ → Prop}
  {m : Proc σ ω ε α}

theorem weaken (h : Traced R P' m Q') (hP : ∀ s, P s → P' s) (hQ : ∀ a s, Q' a s → Q a s) :
    Traced R P m Q := fun s n hs =>
  ⟨(h s n (hP s hs)).1, fun a ha => hQ a _ ((h s n (hP s hs)).2 a ha)⟩

theorem pre (h : Traced R P' m Q) (hP : ∀ s, P s → P' s) : Traced R P m Q :=
  h.weaken hP fun _ _ hq => hq

theorem post (h : Traced R P m Q') (hQ : ∀ a s, Q' a s → Q a s) : Traced R P m Q :=
  h.weaken (fun _ hp => hp) hQ

theorem mono {R' : σ → ω → σ → Prop} (himp : ∀ s o t, R s o t → R' s o t) (h : Traced R P m Q) :
    Traced R' P m Q := fun s n hs => ⟨(h s n hs).1.mono himp, (h s n hs).2⟩

/-- The state a procedure starts from may be fixed. -/
theorem of_eq (h : ∀ s, P s → Traced R (fun t => t = s) m Q) : Traced R P m Q :=
  fun s n hs => h s hs s n rfl

/-- What does not depend on the state is known before. -/
theorem assume {p : Prop} (h : p → Traced R P m Q) : Traced R (fun s => p ∧ P s) m Q :=
  fun s n hs => h hs.1 s n hs.2

theorem pure {a : α} (h : ∀ s, P s → Q a s) : Traced R P (Pure.pure a : Proc σ ω ε α) Q :=
  fun s _ hs => ⟨.nil s, fun _ hb => by cases hb; exact h s hs⟩

theorem done {a : α} : Safe R P (Pure.pure a : Proc σ ω ε α) := pure fun _ _ => trivial

theorem fail {e : ε} : Traced R P (Proc.fail e : Proc σ ω ε α) Q :=
  fun s _ _ => ⟨.nil s, nofun⟩

theorem bind (hm : Traced R P m Q) (hf : ∀ a, Traced R (Q a) (f a) S) : Traced R P (m >>= f) S := by
  intro s n hs
  obtain ⟨hpath, hpost⟩ := hm s n hs
  change Path R s (Proc.bind m f s n).journal (Proc.bind m f s n).state ∧
    ∀ b, (Proc.bind m f s n).result = .ok b → S b (Proc.bind m f s n).state
  rcases hres : (m s n).result with e | a
  · simp only [Proc.bind, hres]
    exact ⟨hpath, nofun⟩
  · obtain ⟨hrest, hend⟩ := hf a _ (m s n).supply (hpost a hres)
    simp only [Proc.bind, hres]
    exact ⟨hpath.append hrest, hend⟩

theorem map {f : α → β} (hm : Traced R P m Q) (hf : ∀ a s, Q a s → S (f a) s) :
    Traced R P (f <$> m) S := hm.bind fun a => Traced.pure (hf a)

theorem get : Traced R P (Proc.get : Proc σ ω ε σ) fun a s => a = s ∧ P s :=
  fun s _ hs => ⟨.nil s, fun _ ha => by cases ha; exact ⟨rfl, hs⟩⟩

theorem draw : Traced R P (Proc.draw : Proc σ ω ε Nat) fun _ s => P s :=
  fun s _ hs => ⟨.nil s, fun _ _ => hs⟩

theorem commit {label : ω} {t : σ} {Q : Unit → σ → Prop} (h : ∀ s, P s → R s label t ∧ Q () t) :
    Traced R P (Proc.commit label t : Proc σ ω ε Unit) Q :=
  fun s _ hs => ⟨.single (h s hs).1, fun _ _ => (h s hs).2⟩

theorem note {label : ω} {Q : Unit → σ → Prop} (h : ∀ s, P s → R s label s ∧ Q () s) :
    Traced R P (Proc.note label : Proc σ ω ε Unit) Q :=
  fun s _ hs => ⟨.single (h s hs).1, fun _ _ => (h s hs).2⟩

theorem recover {a : α} (hm : Traced R P m Q) (herr : ∀ s n, P s → (∃ e, (m s n).result = .error e) →
    Q a (m s n).state) : Traced R P (m.recover a) Q := by
  intro s n hs
  obtain ⟨hpath, hpost⟩ := hm s n hs
  refine ⟨hpath, fun b hb => ?_⟩
  simp only [Proc.recover] at hb ⊢
  rcases hres : (m s n).result with e | c
  · simp only [hres, Except.ok.injEq] at hb
    exact hb ▸ herr s n hs ⟨e, hres⟩
  · simp only [hres, Except.ok.injEq] at hb
    exact hb ▸ hpost c hres

theorem vacuous (h : ∀ s, ¬P s) : Traced R P m Q := fun s _ hs => absurd hs (h s)

theorem ensure {c : Prop} [Decidable c] {e : ε} :
    Traced R P (Proc.ensure c e : Proc σ ω ε Unit) fun _ s => P s ∧ c := by
  rw [Proc.ensure]
  split
  · rename_i hc
    exact Traced.pure fun s hs => ⟨hs, hc⟩
  · exact Traced.fail

theorem whenever {c : Prop} [Decidable c] {m : Proc σ ω ε Unit} {Q : Unit → σ → Prop}
    (hm : c → Traced R P m Q) (hskip : ¬c → ∀ s, P s → Q () s) :
    Traced R P (Proc.whenever c m) Q := by
  rw [Proc.whenever]
  split
  · rename_i hc
    exact hm hc
  · rename_i hc
    exact Traced.pure (hskip hc)

theorem keep {I : σ → Prop} (hm : Traced R P m Q) (hstep : ∀ s o t, I s → R s o t → I t) :
    Traced R (fun s => P s ∧ I s) m fun a s => Q a s ∧ I s := by
  rintro s n ⟨hs, hI⟩
  obtain ⟨hpath, hpost⟩ := hm s n hs
  exact ⟨hpath, fun a ha => ⟨hpost a ha, hpath.invariant hstep hI⟩⟩

/-- A loop over a list, with an invariant that knows which items are done. -/
theorem forM {l : List α} {f : α → Proc σ ω ε PUnit} {I : List α → σ → Prop}
    (h : ∀ done a rest, l = done ++ a :: rest → Traced R (I done) (f a) fun _ => I (done ++ [a])) :
    Traced R (I []) (l.forM f) fun _ => I l := by
  suffices hgen : ∀ rest done, l = done ++ rest →
      Traced R (I done) (rest.forM f) fun _ => I l from hgen l [] rfl
  intro rest
  induction rest with
  | nil =>
    intro done hdone
    rw [append_nil] at hdone
    rw [hdone]
    exact Traced.pure fun s hs => hs
  | cons a rest ih =>
    intro done hdone
    refine (h done a rest hdone).bind fun _ => ih (done ++ [a]) ?_
    rw [hdone, append_assoc]
    rfl

end Traced

/-! ### Errors -/

/-- From a state where `P` holds, `E` holds of every error of `m` and the state it leaves. -/
def Blames (P : σ → Prop) (m : Proc σ ω ε α) (E : ε → σ → Prop) : Prop :=
  ∀ s n, P s → ∀ e, (m s n).result = .error e → E e (m s n).state

namespace Blames

variable {R : σ → ω → σ → Prop} {P P' : σ → Prop} {E : ε → σ → Prop} {Q : α → σ → Prop}
  {m : Proc σ ω ε α} {f : α → Proc σ ω ε β}

theorem pre (h : Blames P' m E) (hP : ∀ s, P s → P' s) : Blames P m E :=
  fun s n hs => h s n (hP s hs)

theorem mono {E' : ε → σ → Prop} (h : Blames P m E) (hE : ∀ e s, E e s → E' e s) : Blames P m E' :=
  fun s n hs e he => hE e _ (h s n hs e he)

theorem pure {a : α} : Blames P (Pure.pure a : Proc σ ω ε α) E := nofun

theorem get : Blames P (Proc.get : Proc σ ω ε σ) E := nofun

theorem draw : Blames P (Proc.draw : Proc σ ω ε Nat) E := nofun

theorem commit {o : ω} {t : σ} : Blames P (Proc.commit o t : Proc σ ω ε Unit) E :=
  nofun

theorem fail {e : ε} (h : ∀ s, P s → E e s) : Blames P (Proc.fail e : Proc σ ω ε α) E :=
  fun s _ hs _ he => by cases he; exact h s hs

theorem bind_of_post (hm : Blames P m E)
    (hpost : ∀ s n, P s → ∀ a, (m s n).result = .ok a → Q a (m s n).state)
    (hf : ∀ a, Blames (Q a) (f a) E) : Blames P (m >>= f) E := by
  intro s n hs e he
  change (Proc.bind m f s n).result = .error e at he
  change E e (Proc.bind m f s n).state
  rcases hres : (m s n).result with e' | a
  · simp only [Proc.bind, hres] at he ⊢
    cases he
    exact hm s n hs e hres
  · simp only [Proc.bind, hres] at he ⊢
    exact hf a _ _ (hpost s n hs a hres) e he

/-- What is known after the first procedure is known before the second. -/
theorem bind (hm : Blames P m E) (ht : Traced R P m Q) (hf : ∀ a, Blames (Q a) (f a) E) :
    Blames P (m >>= f) E := hm.bind_of_post (fun s n hs => (ht s n hs).2) hf

theorem bind_any (hm : Blames P m E) (hf : ∀ a, Blames (fun _ => True) (f a) E) :
    Blames P (m >>= f) E := hm.bind_of_post (fun _ _ _ _ _ => trivial) hf

theorem bind_attempt {ε' : Type} {p : ε → Prop} {E' : ε' → σ → Prop}
    {g : Except ε α → Proc σ ω ε' β} (hm : Blames P m fun e _ => p e)
    (hg : ∀ result, (∀ e, result = .error e → p e) → Blames (fun _ => True) (g result) E') :
    Blames P (m.attempt >>= g) E' := by
  intro s n hs e he
  exact hg (m s n).result (fun e' he' => hm s n hs e' he') (m s n).state (m s n).supply trivial e he

theorem ensure {c : Prop} [Decidable c] {e : ε} (h : ∀ s, P s → ¬c → E e s) :
    Blames P (Proc.ensure c e : Proc σ ω ε Unit) E := by
  rw [Proc.ensure]
  split
  · exact Blames.pure
  · rename_i hc
    exact Blames.fail fun s hs => h s hs hc

theorem whenever {c : Prop} [Decidable c] {m : Proc σ ω ε Unit} (h : c → Blames P m E) :
    Blames P (Proc.whenever c m) E := by
  rw [Proc.whenever]
  split
  · rename_i hc
    exact h hc
  · exact Blames.pure

theorem forM {l : List α} {f : α → Proc σ ω ε PUnit} (h : ∀ a, Blames (fun _ => True) (f a) E) :
    Blames P (l.forM f) E := by
  cases l with
  | nil => exact Blames.pure
  | cons a rest =>
    refine ((h a).pre fun _ _ => trivial).bind_any fun _ => ?_
    induction rest with
    | nil => exact Blames.pure
    | cons b rest ih => exact (h b).bind_any fun _ => ih

end Blames

variable {Q : α → σ → Prop}

section Attempt

variable {ε' : Type} {P I : σ → Prop} {m : Proc σ ω ε α} (hm : Traced R P m Q)
  (hP : ∀ s, P s → I s) (hstep : ∀ s o t, I s → R s o t → I t)

include hm hP hstep

/-- An attempt knows what its error says, and what `I` says holds throughout. -/
theorem Traced.attempt_blames {E : ε → σ → Prop} (hE : Blames P m E) :
    Traced R P (m.attempt : Proc σ ω ε' (Except ε α)) fun result s =>
      I s ∧ (∀ a, result = .ok a → Q a s) ∧ ∀ e, result = .error e → E e s := by
  intro s n hs
  obtain ⟨hpath, hpost⟩ := hm s n hs
  refine ⟨hpath, fun result hresult => ⟨hpath.invariant hstep (hP s hs), fun a ha => ?_,
    fun e he => ?_⟩⟩
  · cases hresult
    exact hpost a ha
  · cases hresult
    exact hE s n hs e he

theorem Traced.attempt :
    Traced R P (m.attempt : Proc σ ω ε' (Except ε α)) fun result s =>
      I s ∧ ∀ a, result = .ok a → Q a s :=
  (hm.attempt_blames hP hstep (E := fun _ _ => True) fun _ _ _ _ _ => trivial).post
    fun _ _ h => ⟨h.1, h.2.1⟩

end Attempt

/-! ### Errors that change nothing -/

/-- The procedure never changes the state, which is what lets an error after it leave the state as
it was. -/
def ReadOnly (m : Proc σ ω ε α) : Prop := ∀ s n, (m s n).state = s

/-- An error of the procedure leaves the state as it was: what a transaction that rolls back
promises. -/
def ErrorAtomic (m : Proc σ ω ε α) : Prop := ∀ s n e, (m s n).result = .error e → (m s n).state = s

namespace ErrorAtomic

variable {m : Proc σ ω ε α}

theorem pure {a : α} : ErrorAtomic (Pure.pure a : Proc σ ω ε α) := fun _ _ _ _ => rfl

theorem bind_readOnly (hm : ReadOnly m) (hf : ∀ a, ErrorAtomic (f a)) : ErrorAtomic (m >>= f) := by
  intro s n e h
  change (Proc.bind m f s n).state = s
  change (Proc.bind m f s n).result = .error e at h
  rcases hres : (m s n).result with e' | a
  · simp only [Proc.bind, hres]
    exact hm s n
  · simp only [Proc.bind, hres] at h ⊢
    rw [hf a _ _ e h, hm]

theorem bind_total (hm : ErrorAtomic m) (hf : ∀ a s n, ∃ b, (f a s n).result = .ok b) :
    ErrorAtomic (m >>= f) := by
  intro s n e h
  change (Proc.bind m f s n).state = s
  change (Proc.bind m f s n).result = .error e at h
  rcases hres : (m s n).result with e' | a
  · simp only [Proc.bind, hres]
    exact hm s n e' hres
  · obtain ⟨b, hb⟩ := hf a (m s n).state (m s n).supply
    simp only [Proc.bind, hres, hb] at h
    cases h

end ErrorAtomic

/-! ### Histories of calls -/

/-- What a sequence of calls leaves behind. Each call may be cut off after any of its commits. -/
inductive History (init : σ → Prop) (call : ι → Proc σ ω ε α) : σ → List (ω × σ) → σ → Prop where
  | init {s : σ} (h : init s) : History init call s [] s
  | call {s₀ s : σ} {j p : List (ω × σ)} (before : History init call s₀ j s) (i : ι)
      (h : p <+: (call i s 0).journal) : History init call s₀ (j ++ p) (lastState s p)

/-- Calls one after the other, each to its end: what they journal and the state they leave. -/
def replay (call : ι → Proc σ ω ε α) : List ι → σ → List (ω × σ) × σ
  | [], s => ([], s)
  | i :: rest, s =>
    let outcome := call i s 0
    let later := replay call rest (lastState s outcome.journal)
    (outcome.journal ++ later.1, later.2)

variable {call : ι → Proc σ ω ε α} {init : σ → Prop}

theorem History.eq_lastState {s₀ s : σ} (h : History init call s₀ j s) : s = lastState s₀ j := by
  induction h with
  | init _ => rfl
  | call before i hinitial ih => rw [lastState_append, ← ih]

theorem History.mem_states {s₀ s : σ} (h : History init call s₀ j s) : s ∈ s₀ :: j.map (·.2) := by
  rw [h.eq_lastState]
  exact lastState_mem s₀ j

/-- Where every call is made in a state that `C` admits it in. -/
inductive HistoryWhere (C : σ → ι → Prop) (init : σ → Prop) (call : ι → Proc σ ω ε α) :
    σ → List (ω × σ) → σ → Prop where
  | init {s : σ} (h : init s) : HistoryWhere C init call s [] s
  | call {s₀ s : σ} {j p : List (ω × σ)} (before : HistoryWhere C init call s₀ j s) (i : ι)
      (hC : C s i) (h : p <+: (call i s 0).journal) :
      HistoryWhere C init call s₀ (j ++ p) (lastState s p)

/-- Every call of a replay is made in a state that `C` admits it in. -/
def Admitted (C : σ → ι → Prop) (call : ι → Proc σ ω ε α) : List ι → σ → Prop
  | [], _ => True
  | i :: rest, s => C s i ∧ Admitted C call rest (lastState s (call i s 0).journal)

variable {C : σ → ι → Prop}

theorem HistoryWhere.of_admitted {s₀ : σ} (hinit : init s₀) {calls : List ι}
    (hC : Admitted C call calls s₀) :
    HistoryWhere C init call s₀ (replay call calls s₀).1 (replay call calls s₀).2 := by
  suffices hgen : ∀ calls s j, Admitted C call calls s → HistoryWhere C init call s₀ j s →
      HistoryWhere C init call s₀ (j ++ (replay call calls s).1) (replay call calls s).2 from
    hgen calls s₀ [] hC (.init hinit)
  intro calls
  induction calls with
  | nil =>
    intro s j _ h
    rw [replay, append_nil]
    exact h
  | cons i rest ih =>
    intro s j hC h
    rw [replay, ← append_assoc]
    exact ih _ _ hC.2 (h.call i hC.1 (prefix_refl _))

/-- Calls that are admitted in every state, each to its end. -/
theorem HistoryWhere.of_replay {s₀ : σ} (hinit : init s₀) {calls : List ι}
    (hC : ∀ i ∈ calls, ∀ s, C s i) :
    HistoryWhere C init call s₀ (replay call calls s₀).1 (replay call calls s₀).2 := by
  refine HistoryWhere.of_admitted hinit ?_
  clear hinit
  induction calls generalizing s₀ with
  | nil => trivial
  | cons i rest ih =>
    obtain ⟨hi, hrest⟩ := forall_mem_cons.mp hC
    exact ⟨hi s₀, ih hrest⟩

theorem HistoryWhere.history {s₀ s : σ} (h : HistoryWhere C init call s₀ j s) :
    History init call s₀ j s := by
  induction h with
  | init h => exact .init h
  | call before i _ hinitial ih => exact ih.call i hinitial

theorem History.of_replay {s : σ} (hinit : init s) (calls : List ι) :
    History init call s (replay call calls s).1 (replay call calls s).2 :=
  (HistoryWhere.of_replay (C := fun _ _ => True) hinit fun _ _ _ => trivial).history

theorem HistoryWhere.path_of_invariant {init P : σ → Prop} (hinit : ∀ s, init s → P s)
    (hstep : ∀ s o t, P s → R s o t → P t)
    (htraced : ∀ i, Traced R (fun s => P s ∧ C s i) (call i) Q) {s₀ s : σ}
    (h : HistoryWhere C init call s₀ j s) : init s₀ ∧ Path R s₀ j s ∧ P s := by
  induction h with
  | init h => exact ⟨h, .nil _, hinit _ h⟩
  | @call s₁ j p before i hC hinitial ih =>
    obtain ⟨hinit₀, hbefore, hs₁⟩ := ih
    have hpath := (htraced i s₁ 0 ⟨hs₁, hC⟩).1
    obtain ⟨rest, hrest⟩ := hinitial
    rw [← hrest] at hpath
    have hcut := hpath.of_append.1
    exact ⟨hinit₀, hbefore.append hcut, hcut.invariant hstep hs₁⟩

theorem History.historyWhere {s₀ s : σ} (h : History init call s₀ j s) :
    HistoryWhere (fun _ _ => True) init call s₀ j s := by
  induction h with
  | init h => exact .init h
  | call before i hinitial ih => exact ih.call i trivial hinitial

/-- The history of calls that are traced where `P` holds, by steps that keep it. -/
theorem History.path_of_invariant {init P : σ → Prop} (hinit : ∀ s, init s → P s)
    (hstep : ∀ s o t, P s → R s o t → P t) (htraced : ∀ i, Traced R P (call i) Q) {s₀ s : σ}
    (h : History init call s₀ j s) : init s₀ ∧ Path R s₀ j s :=
  (h.historyWhere.path_of_invariant hinit hstep fun i => (htraced i).pre fun _ hs => hs.1).imp_right
    And.left

/-- The history of traced calls is a path from an initial state. -/
theorem History.path (htraced : ∀ i, Traced R (fun _ => True) (call i) fun _ _ => True) {s₀ s : σ}
    (h : History init call s₀ j s) : init s₀ ∧ Path R s₀ j s :=
  h.path_of_invariant (P := fun _ => True) (fun _ _ => trivial) (fun _ _ _ _ _ => trivial) htraced

end OraDesktop.Journal
