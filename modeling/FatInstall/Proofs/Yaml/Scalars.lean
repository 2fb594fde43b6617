import FatInstall.Proofs.Yaml.Tokens
import FatInstall.Yaml.Scalar

/-!
# Faults of scalars

A scalar whose text writes nothing of its kind is no number, no date, too large a scale or no truth
value; one of a kind without values is not well-formed.

* `IsScalarFault`: what can be wrong with a scalar.
* `Scalar.faultsIn_value`: finding the value of a scalar ends in no other fault.
-/

namespace FatInstall.Yaml

/-- Is it a fault that a scalar can have: that its text writes nothing of its kind? -/
def IsScalarFault (v : ValueFault) : Prop :=
  v = .noSuchValue ∨ v = .emptyNumber ∨ v = .notADate ∨ v = .scaleTooLarge ∨
    ∃ word, v = .unknownTruth word

namespace Scalar

/-- Is it a fault of the form of a document, or one that a scalar can have? -/
def IsFault (f : Fault) : Prop := f = .malformed ∨ ∃ v, f = .value v ∧ IsScalarFault v

variable {α : Type}

theorem faultsIn_none : FaultsIn IsFault (.error (.value .noSuchValue) : Except Fault α) :=
  faultsIn_error (.inr ⟨_, rfl, .inl rfl⟩)

theorem faultsIn_empty : FaultsIn IsFault (.error (.value .emptyNumber) : Except Fault α) :=
  faultsIn_error (.inr ⟨_, rfl, .inr (.inl rfl)⟩)

theorem faultsIn_orNone (o : Option α) : FaultsIn IsFault (orNone o) := by
  cases o with
  | none => exact faultsIn_none
  | some a => exact faultsIn_ok

theorem faultsIn_bool (text : Text) : FaultsIn IsFault (bool text) := by
  unfold bool
  dsimp only
  split
  all_goals first
    | exact faultsIn_ok
    | exact faultsIn_error (.inr ⟨_, rfl, .inr (.inr (.inr (.inr ⟨_, rfl⟩)))⟩)

theorem faultsIn_unsignedInt (cs : List Char) : FaultsIn IsFault (unsignedInt cs) := by
  unfold unsignedInt
  split
  · exact faultsIn_empty
  · exact faultsIn_ok
  · exact faultsIn_orNone _
  · exact faultsIn_orNone _
  · exact faultsIn_orNone _
  · exact .ite ((faultsIn_orNone _).map _) (faultsIn_orNone _)

theorem faultsIn_int (text : Text) : FaultsIn IsFault (int text) :=
  (faultsIn_orNone _).bind fun _ => .ite faultsIn_empty ((faultsIn_unsignedInt _).map _)

theorem faultsIn_floatSum (power : Nat) (sum : Float) (parts : List Float) :
    FaultsIn IsFault (floatSum power sum parts) := by
  induction parts generalizing power sum with
  | nil => exact faultsIn_ok
  | cons x parts ih =>
    exact .ite (faultsIn_error (.inr ⟨_, rfl, .inr (.inr (.inr (.inl rfl)))⟩)) (ih _ _)

theorem faultsIn_unsignedFloat (cs : List Char) : FaultsIn IsFault (unsignedFloat cs) :=
  .ite faultsIn_ok (.ite ((faultsIn_orNone _).bind fun _ => faultsIn_floatSum _ _ _)
    (faultsIn_orNone _))

theorem faultsIn_float (text : Text) : FaultsIn IsFault (float text) :=
  (faultsIn_orNone _).bind fun _ =>
    .ite faultsIn_empty (.ite faultsIn_ok ((faultsIn_unsignedFloat _).map _))

theorem faultsIn_binary (text : Text) : FaultsIn IsFault (binary text) := by
  unfold binary
  split
  · exact faultsIn_error (.inl rfl)
  · refine .ite ?_ (faultsIn_error (.inl rfl))
    split
    · exact faultsIn_ok
    · exact faultsIn_error (.inl rfl)

theorem faultsIn_timestamp (text : Text) : FaultsIn IsFault (timestamp text) := by
  unfold timestamp
  dsimp only
  split
  · exact faultsIn_error (.inr ⟨_, rfl, .inr (.inr (.inl rfl))⟩)
  split
  · exact (faultsIn_orNone _).bind fun _ => faultsIn_ok
  · refine .ite faultsIn_none ?_
    exact (faultsIn_orNone _).bind fun _ => (faultsIn_orNone _).bind fun _ => faultsIn_ok

theorem faultsIn_value (tag : Tag) (text : Text) : FaultsIn IsFault (value tag text) := by
  unfold value
  split
  · exact faultsIn_ok
  · exact faultsIn_bool text
  · exact faultsIn_int text
  · exact faultsIn_float text
  · exact faultsIn_binary text
  · exact faultsIn_timestamp text
  · exact faultsIn_ok
  · exact faultsIn_error (.inl rfl)

end Scalar

end FatInstall.Yaml
