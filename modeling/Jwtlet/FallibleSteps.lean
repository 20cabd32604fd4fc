import Mathlib

/-!
# Steps that may fail

`Ends P Q x` says how a fallible computation ends: with a value that has `P` or with
an error that has `Q`.  The rules follow the way such computations are put together,
so that what is known of a chain of steps is assembled from what is known of each.
-/

namespace Fallible

variable {E F A B : Type}

/-- A computation that gives a value ends with `P` of it, and one that fails ends with `Q`
of its error. -/
def Ends (P : A → Prop) (Q : E → Prop) : Except E A → Prop
  | .ok a => P a
  | .error e => Q e

variable {P : A → Prop} {P' : B → Prop} {Q : E → Prop} {Q' : F → Prop} {x : Except E A}

@[simp] theorem ends_ok {a : A} : Ends P Q (.ok a) ↔ P a := Iff.rfl

@[simp] theorem ends_error {e : E} : Ends P Q (.error e) ↔ Q e := Iff.rfl

/-- A computation ends as it does.  Where nothing is known of a step yet, its chain starts
with this. -/
theorem ends_self (x : Except E A) : Ends (fun a => x = .ok a) (fun e => x = .error e) x := by
  cases x with
  | ok a => exact ends_ok.mpr rfl
  | error e => exact ends_error.mpr rfl

/-- What is known of the values of a computation holds of the value that it gave. -/
theorem Ends.of_ok {a : A} (h : Ends P Q x) (hx : x = .ok a) : P a := by
  rw [hx] at h
  exact h

/-- What is known of the errors of a computation holds of the error that it ended with. -/
theorem Ends.of_error {e : E} (h : Ends P Q x) (hx : x = .error e) : Q e := by
  rw [hx] at h
  exact h

/-- Less may be said of the values than is known of them. -/
theorem Ends.imp {R : A → Prop} (hx : Ends P Q x) (h : ∀ a, P a → R a) : Ends R Q x := by
  cases x with
  | ok a => exact h a hx
  | error e => exact hx

/-- What follows a value may rely on what is known of it.  An error of the first step is
the error of both. -/
theorem Ends.bind {f : A → Except E B} (hx : Ends P Q x) (hf : ∀ a, P a → Ends P' Q (f a)) :
    Ends P' Q (x >>= f) := by
  cases x with
  | ok a => exact hf a hx
  | error e => exact hx

/-- What is made of a value by a function has what the function makes of the property. -/
theorem Ends.map {f : A → B} (hx : Ends P Q x) (hf : ∀ a, P a → P' (f a)) :
    Ends P' Q (x.map f) := by
  cases x with
  | ok a => exact hf a hx
  | error e => exact hx

/-- Errors that are passed on in another form have what that form makes of their property.
-/
theorem Ends.mapError {f : E → F} (hx : Ends P Q x) (hf : ∀ e, Q e → Q' (f e)) :
    Ends P Q' (x.mapError f) := by
  cases x with
  | ok a => exact hx
  | error e => exact hf e hx

/-- An operation whose errors are passed on in another form, with its own value and its
own errors as all that is known. -/
theorem ends_mapError {f : E → F} (hf : ∀ e, x = .error e → Q' (f e)) :
    Ends (fun a => x = .ok a) Q' (x.mapError f) :=
  (ends_self x).mapError hf

/-- A value that must be there, and is.  The error for its absence is never met. -/
theorem ends_elim {o : Option A} {e : E} (h : o.isSome) :
    Ends (fun a => o = some a) Q (o.elim (.error e) .ok) := by
  cases o with
  | none => cases h
  | some a => exact ends_ok.mpr rfl

end Fallible
