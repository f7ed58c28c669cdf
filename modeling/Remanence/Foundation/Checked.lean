import Mathlib.Tactic.Common

/-!
# Fallible computations

Early returns are modelled in `Except`: `rejectIf` is a guard, `orElseError` turns a missing
value into an error. The simp set turns a successful run into the facts its guards established.
-/

namespace Remanence.Foundation

open List

universe u

variable {ε : Type*} {α β : Type u}

/-- Stop with an error when the condition holds. -/
def rejectIf {ε : Type*} (c : Prop) [Decidable c] (error : ε) : Except ε Unit :=
  if c then .error error else .ok ()

def orElseError {ε α : Type*} (value : Option α) (error : ε) : Except ε α :=
  match value with
  | some a => .ok a
  | none => .error error

variable {c : Prop} {error : ε}

@[simp] theorem rejectIf_eq_ok [Decidable c] {u : Unit} : rejectIf c error=.ok u ↔ ¬c := by
  unfold rejectIf
  split <;> simp_all

theorem rejectIf_pos [Decidable c] (h : ¬c) : rejectIf c error=.ok () := if_neg h

theorem rejectIf_neg [Decidable c] (h : c) : rejectIf c error=.error error := if_pos h

@[simp] theorem rejectIf_false (error : ε) : rejectIf False error=.ok () := rfl

@[simp] theorem orElseError_some (a : α) (error : ε) : orElseError (some a) error=.ok a := rfl

@[simp] theorem orElseError_none (error : ε) :
    orElseError (none : Option α) error=.error error := rfl

variable {a : α}

@[simp] theorem orElseError_eq_ok {value : Option α} :
    orElseError value error=.ok a ↔ value=some a := by
  cases value <;> simp

variable {f : α → Except ε β}

@[simp] theorem bind_eq_ok {x : Except ε α} {b : β} :
    (x >>= f)=.ok b ↔ ∃ a, x=.ok a ∧ f a=.ok b := by
  cases x <;> simp [bind,Except.bind]

@[simp] theorem ok_bind (a : α) (f : α → Except ε β) : (Except.ok a >>= f)=f a := rfl

@[simp] theorem error_bind (e : ε) (f : α → Except ε β) :
    ((Except.error e : Except ε α) >>= f)=.error e := rfl

@[simp] theorem map_ok (f : α → β) (a : α) : f <$> (Except.ok a : Except ε α)=.ok (f a) := rfl

theorem map_eq_ok {f : α → β} {x : Except ε α} {b : β} : f <$> x=.ok b ↔ ∃ a, x=.ok a ∧ f a=b := by
  cases x <;> simp [Functor.map,Except.map]

@[simp] theorem mapError_eq_ok {ε' : Type*} {f : ε → ε'} {x : Except ε α} :
    x.mapError f=.ok a ↔ x=.ok a := by
  cases x <;> simp [Except.mapError]

@[simp] theorem pure_eq_ok {b : α} : (pure a : Except ε α)=.ok b ↔ a=b := by
  simp [pure,Except.pure]

/-- The rules for a run that succeeds, as one simp set. -/
theorem eq_ok : (∀ {ε α β : Type} {x : Except ε α} {f : α → Except ε β} {b : β},
      (x >>= f)=.ok b ↔ ∃ a, x=.ok a ∧ f a=.ok b) ∧
    (∀ {ε α : Type} {a b : α}, (pure a : Except ε α)=.ok b ↔ a=b) ∧
    (∀ {ε : Type} {c : Prop} [Decidable c] {error : ε} {u : Unit}, rejectIf c error=.ok u ↔ ¬c) ∧
    ∀ {ε α : Type} {value : Option α} {error : ε} {a : α},
      orElseError value error=.ok a ↔ value=some a :=
  ⟨bind_eq_ok,pure_eq_ok,rejectIf_eq_ok,orElseError_eq_ok⟩

theorem exists_of_isOk {ε α : Type*} {x : Except ε α} (h : x.isOk=true) : ∃ a, x=.ok a := by
  cases x with
  | ok a => exact ⟨a,rfl⟩
  | error e => cases h

theorem exists_of_map {ε α β : Type*} {x : Except ε α} {f : α → β} {b : β}
    (h : x.toOption.map f=some b) : ∃ a, x=.ok a ∧ f a=b := by
  cases x with
  | ok a => exact ⟨a,rfl,Option.some.inj h⟩
  | error e => cases h

theorem foldlM_cons_eq_ok {f : β → α → Except ε β} {l : List α} {s t : β} :
    (a::l).foldlM f s=.ok t ↔ ∃ u, f s a=.ok u ∧ l.foldlM f u=.ok t := by
  rw [foldlM_cons,bind_eq_ok]

variable {r : List β}

theorem mapM_cons_eq_ok {l : List α} :
    (a::l).mapM f=.ok r ↔ ∃ b bs, f a=.ok b ∧ l.mapM f=.ok bs ∧ r=b::bs := by
  rw [mapM_cons]
  simp only [bind_eq_ok,pure_eq_ok]
  constructor
  · rintro ⟨b,hb,bs,hbs,rfl⟩
    exact ⟨b,bs,hb,hbs,rfl⟩
  · rintro ⟨b,bs,hb,hbs,rfl⟩
    exact ⟨b,hb,bs,hbs,rfl⟩

theorem mapM_eq_ok_map {g : α → β} {l : List α} (h : ∀ a ∈ l, f a=.ok (g a)) :
    l.mapM f=.ok (l.map g) := by
  induction l with
  | nil => rfl
  | cons a l ih =>
    rw [mapM_cons_eq_ok]
    exact ⟨g a,l.map g,h a (by simp),ih fun b hb => h b (by simp [hb]),rfl⟩

theorem map_of_mapM_eq_ok {g : α → β} {P : α → Prop} {l : List α} (h : l.mapM f=.ok r)
    (hf : ∀ a ∈ l, ∀ b, f a=.ok b → b=g a ∧ P a) : r=l.map g ∧ ∀ a ∈ l, P a := by
  induction l generalizing r with
  | nil =>
    obtain rfl : []=r := by simpa [pure,Except.pure] using h
    simp
  | cons a l ih =>
    obtain ⟨b,bs,hb,hbs,rfl⟩ := mapM_cons_eq_ok.mp h
    obtain ⟨rfl,hP⟩ := hf a (by simp) b hb
    obtain ⟨rfl,hrest⟩ := ih hbs fun c hc => hf c (by simp [hc])
    exact ⟨rfl,by simpa using ⟨hP,hrest⟩⟩

theorem length_of_mapM_eq_ok {l : List α} (h : l.mapM f=.ok r) : r.length=l.length := by
  induction l generalizing r with
  | nil =>
    obtain rfl : []=r := by simpa [pure,Except.pure] using h
    rfl
  | cons a l ih =>
    obtain ⟨b,bs,_,hbs,rfl⟩ := mapM_cons_eq_ok.mp h
    rw [length_cons,length_cons,ih hbs]

theorem getElem?_of_mapM_eq_ok {l : List α} (h : l.mapM f=.ok r) {i : ℕ} (hi : l[i]?=some a) :
    ∃ b, f a=.ok b ∧ r[i]?=some b := by
  induction l generalizing r i with
  | nil => cases hi
  | cons x l ih =>
    obtain ⟨b,bs,hb,hbs,rfl⟩ := mapM_cons_eq_ok.mp h
    cases i with
    | zero =>
      obtain rfl : x=a := Option.some.inj hi
      exact ⟨b,hb,rfl⟩
    | succ i => exact ih hbs hi

theorem exists_of_mapM_eq_error {l : List α} {e : ε} (h : l.mapM f=.error e) :
    ∃ a ∈ l, f a=.error e := by
  induction l with
  | nil => cases h
  | cons a l ih =>
    rw [mapM_cons] at h
    cases ha : f a with
    | error x =>
      rw [ha,error_bind,Except.error.injEq] at h
      exact ⟨a,by simp,by rw [ha,h]⟩
    | ok b =>
      rw [ha,ok_bind] at h
      cases hl : l.mapM f with
      | error x =>
        rw [hl,error_bind,Except.error.injEq] at h
        obtain ⟨c,hc,hfc⟩ := ih (by rw [hl,h])
        exact ⟨c,by simp [hc],hfc⟩
      | ok bs =>
        rw [hl] at h
        cases h

theorem forM_eq_ok {ε α : Type*} {f : α → Except ε Unit} {l : List α} {u : Unit} :
    l.forM f=.ok u ↔ ∀ a ∈ l, f a=.ok () := by
  induction l with
  | nil => simp [List.forM,pure,Except.pure]
  | cons a l ih =>
    have hstep : (a::l).forM f=f a >>= fun _ => l.forM f := rfl
    rw [hstep,bind_eq_ok,forall_mem_cons,ih]
    constructor
    · rintro ⟨_,ha,hl⟩
      exact ⟨ha,hl⟩
    · rintro ⟨ha,hl⟩
      exact ⟨(),ha,hl⟩

end Remanence.Foundation
