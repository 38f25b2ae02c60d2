import AxvisorTools.Shell.Script

/-!
# Pre- and postconditions of scripts

`Triple p m q e`: from a state in `p`, the script `m` ends in `q` when it ends normally and in `e`
when it stops. The rules follow the commands.
-/

namespace Shell

variable {σ α β : Type}

/-- No command ended the script by failing. -/
def RunsToEnd (r : Except Stop α × σ) : Prop := ∀ n, r.1 ≠ .error (.errexit n)

namespace Sh

@[simp] theorem pure_apply (a : α) (s : σ) : (pure a : Sh σ α) s = (.ok a, s) := rfl

theorem bind_apply (m : Sh σ α) (f : α → Sh σ β) (s : σ) :
    (m >>= f) s = match m s with
      | (.ok a, s) => f a s
      | (.error e, s) => (.error e, s) := rfl

@[simp] theorem get_apply (s : σ) : (get : Sh σ σ) s = (.ok s, s) := rfl

@[simp] theorem modify_apply (f : σ → σ) (s : σ) : modify f s = (.ok (), f s) := rfl

theorem bind_ok {m : Sh σ α} {f : α → Sh σ β} {s s' : σ} {a : α} (h : m s = (.ok a, s')) :
    (m >>= f) s = f a s' := by
  rw [bind_apply, h]

theorem bind_error {m : Sh σ α} {f : α → Sh σ β} {s s' : σ} {e : Stop}
    (h : m s = (.error e, s')) : (m >>= f) s = (.error e, s') := by
  rw [bind_apply, h]

end Sh

/-- Postconditions for both ways a script can end (module doc). -/
def Triple (p : σ → Prop) (m : Sh σ α) (q : α → σ → Prop) (e : Stop → σ → Prop) : Prop :=
  ∀ s, p s → match m s with
    | (.ok a, s') => q a s'
    | (.error x, s') => e x s'

/-- The script never stops. -/
def Never : Stop → σ → Prop := fun _ _ => False

namespace Triple

variable {p p' : σ → Prop} {q q' : α → σ → Prop} {r : β → σ → Prop} {e e' : Stop → σ → Prop}
  {m : Sh σ α}

theorem conseq (h : Triple p m q e) (hp : ∀ s, p' s → p s) (hq : ∀ a s, q a s → q' a s)
    (he : ∀ x s, e x s → e' x s) : Triple p' m q' e' := by
  intro s hs
  have h := h s (hp s hs)
  revert h
  rcases m s with ⟨a | a, s'⟩
  · exact he a s'
  · exact hq a s'

theorem pure (a : α) (h : ∀ s, p s → q a s) : Triple p (Pure.pure a) q e := fun s hs => h s hs

theorem bind {f : α → Sh σ β} (hm : Triple p m q e) (hf : ∀ a, Triple (q a) (f a) r e) :
    Triple p (m >>= f) r e := by
  intro s hs
  have hm := hm s hs
  rw [Sh.bind_apply]
  revert hm
  rcases m s with ⟨a | a, s'⟩
  · exact id
  · exact fun h => hf a s' h

theorem bindValue {f : α → Sh σ β} {a : α} {q : σ → Prop}
    (hm : Triple p m (fun b s => b = a ∧ q s) e) (hf : Triple q (f a) r e) :
    Triple p (m >>= f) r e := by
  refine bind hm fun b s hs => ?_
  obtain ⟨rfl, hq⟩ := hs
  exact hf s hq

theorem modify {f : σ → σ} {q : Unit → σ → Prop} (h : ∀ s, p s → q () (f s)) :
    Triple p (Sh.modify f) q e := fun s hs => h s hs

theorem get {q : σ → σ → Prop} (h : ∀ s, p s → q s s) : Triple p Sh.get q e := fun s hs => h s hs

theorem ite {c : Prop} [Decidable c] {m' : Sh σ α} (ht : c → Triple p m q e)
    (hf : ¬c → Triple p m' q e) : Triple p (if c then m else m') q e := by
  split
  · next h => exact ht h
  · next h => exact hf h

theorem each {f : β → Sh σ Unit} {p : σ → Prop} {xs : List β}
    (h : ∀ x ∈ xs, Triple p (f x) (fun _ => p) e) : Triple p (Sh.each f xs) (fun _ => p) e := by
  induction xs with
  | nil => exact pure () fun _ h => h
  | cons x xs ih =>
    exact bind (h x List.mem_cons_self) fun _ => ih fun y hy => h y (List.mem_cons_of_mem _ hy)

end Triple

end Shell
