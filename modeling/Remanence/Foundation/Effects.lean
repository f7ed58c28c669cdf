import Mathlib.Logic.Basic

/-!
# Programs with a state that survives errors

A program of `EStateM` returns a value or an error, and in both cases the state
it has reached. A triple says which states those are. The rules follow the
program: one for each way of building it.
-/

namespace Remanence.Foundation

variable {ε σ α β : Type}

/-- From every state in `pre` the program returns into `post` or fails into `err`. -/
def Triple (pre : σ → Prop) (x : EStateM ε σ α) (post : α → σ → Prop) (err : σ → Prop) : Prop :=
  ∀ s, pre s → match x s with
    | .ok a s' => post a s'
    | .error _ s' => err s'

def finalState : EStateM.Result ε σ α → σ
  | .ok _ s => s
  | .error _ s => s

namespace Triple

variable {pre pre' : σ → Prop} {post post' : α → σ → Prop} {err : σ → Prop} {x : EStateM ε σ α}

theorem pure {a : α} (h : ∀ s, pre s → post a s) : Triple pre (Pure.pure a : EStateM ε σ α) post err :=
  fun s hs => h s hs

theorem throw {e : ε} (h : ∀ s, pre s → err s) :
    Triple pre (MonadExcept.throw e : EStateM ε σ α) post err :=
  fun s hs => h s hs

theorem get : Triple pre (MonadState.get : EStateM ε σ σ) (fun a s => a=s ∧ pre s) err :=
  fun _ hs => ⟨rfl,hs⟩

theorem set {t : σ} {post : PUnit → σ → Prop} (h : ∀ s, pre s → post () t) :
    Triple pre (MonadStateOf.set t : EStateM ε σ PUnit) post err :=
  fun s hs => h s hs

theorem modify {f : σ → σ} {post : Unit → σ → Prop} (h : ∀ s, pre s → post () (f s)) :
    Triple pre (modify f : EStateM ε σ PUnit) post err :=
  fun s hs => h s hs

theorem bind {f : α → EStateM ε σ β} {mid : α → σ → Prop} {post : β → σ → Prop}
    (hx : Triple pre x mid err) (hf : ∀ a, Triple (mid a) (f a) post err) :
    Triple pre (x >>= f) post err := by
  intro s hs
  have hfirst := hx s hs
  change match EStateM.bind x f s with
    | .ok a s' => post a s'
    | .error _ s' => err s'
  unfold EStateM.bind
  cases hrun : x s with
  | ok a s' =>
    rw [hrun] at hfirst
    exact hf a s' hfirst
  | error e s' =>
    rwa [hrun] at hfirst

theorem run_get (s : σ) (f : σ → EStateM ε σ β) : (MonadState.get >>= f) s=f s s := rfl

theorem run_set (s t : σ) (f : PUnit → EStateM ε σ β) : (MonadStateOf.set t >>= f) s=f ⟨⟩ t := rfl

theorem bind_get {s : σ} {f : σ → EStateM ε σ β} {post : β → σ → Prop}
    (h : Triple (fun t => t=s) (f s) post err) :
    Triple (fun t => t=s) (MonadState.get >>= f) post err := by
  rintro t rfl
  exact h t rfl

theorem imp (h : Triple pre x post err) (hpre : ∀ s, pre' s → pre s)
    (hpost : ∀ a s, post a s → post' a s) : Triple pre' x post' err := by
  intro s hs
  have hrun := h s (hpre s hs)
  cases hx : x s with
  | ok a s' =>
    rw [hx] at hrun
    exact hpost a s' hrun
  | error e s' =>
    rwa [hx] at hrun

theorem assume {p : Prop} (h : p → Triple pre x post err) (hp : ∀ s, pre s → p) :
    Triple pre x post err :=
  fun s hs => h (hp s hs) s hs

theorem of_ok {s s' : σ} {a : α} (h : Triple pre x post err) (hs : pre s) (hx : x s=.ok a s') :
    post a s' := by
  have hrun := h s hs
  rwa [hx] at hrun

theorem final {s : σ} (h : Triple pre x post err) (hs : pre s) (hpost : ∀ a s, post a s → err s) :
    err (finalState (x s)) := by
  have hrun := h s hs
  cases hx : x s with
  | ok a s' =>
    rw [hx] at hrun
    exact hpost a s' hrun
  | error e s' =>
    rwa [hx] at hrun

theorem forM {l : List β} {f : β → EStateM ε σ PUnit} {inv : σ → Prop}
    (h : ∀ b ∈ l, Triple inv (f b) (fun _ => inv) err) : Triple inv (l.forM f) (fun _ => inv) err := by
  induction l with
  | nil => exact pure fun _ hs => hs
  | cons b l ih =>
    exact bind (h b List.mem_cons_self) fun _ => ih fun c hc => h c (List.mem_cons_of_mem _ hc)

end Triple

end Remanence.Foundation
