import Mathlib.Tactic.Common

/-! Transactions as programs of database statements, over any store. A program
runs against a store; a fault makes one of its statements throw instead; and a
transaction commits a program that returns and rolls back one that throws. -/
namespace Relational

/-- A program of statements, each of which reads or changes the store and may
itself throw. What comes next depends on what the statement returned. -/
inductive Tx (σ : Type) : Type → Type 1 where
  | done {α : Type} (value : α) : Tx σ α
  | throw {α : Type} (message : String) : Tx σ α
  | statement {α β : Type} (exec : σ → Except String (β × σ)) (next : β → Tx σ α) : Tx σ α

/-- One statement of a transaction throws: which one, and what it says. -/
structure Fault where
  index : ℕ
  message : String
  deriving DecidableEq, Repr

namespace Tx
variable {σ α β : Type}

def bind : Tx σ α → (α → Tx σ β) → Tx σ β
  | .done value, f => f value
  | .throw message, _ => .throw message
  | .statement exec next, f => .statement exec fun reply => (next reply).bind f

instance : Monad (Tx σ) where
  pure := .done
  bind := Tx.bind

/-- A statement that only reads. -/
def read (query : σ → α) : Tx σ α := .statement (fun s => .ok (query s, s)) .done

/-- A statement that only writes. -/
def write (change : σ → σ) : Tx σ Unit := .statement (fun s => .ok ((), change s)) .done

/-- A write the database may refuse. -/
def tryWrite (change : σ → Except String σ) : Tx σ Unit :=
  .statement (fun s => (change s).map fun s' => ((), s')) .done

/-- Run a program to its end, or to the first throw. -/
def run : Tx σ α → σ → Except String (α × σ)
  | .done value, s => .ok (value, s)
  | .throw message, _ => .error message
  | .statement exec next, s =>
    match exec s with
    | .ok (reply, s') => (next reply).run s'
    | .error message => .error message

/-- Run a program whose statement number `fault.index` throws. -/
def runFaulty : Tx σ α → ℕ → String → σ → Except String (α × σ)
  | .done value, _, _, s => .ok (value, s)
  | .throw message, _, _, _ => .error message
  | .statement _ _, 0, message, _ => .error message
  | .statement exec next, index + 1, message, s =>
    match exec s with
    | .ok (reply, s') => (next reply).runFaulty index message s'
    | .error message => .error message

@[simp] theorem run_read (query : σ → α) (s : σ) : (read query).run s = .ok (query s, s) := rfl

@[simp] theorem run_write (change : σ → σ) (s : σ) : (write change).run s = .ok ((), change s) := rfl

theorem run_tryWrite {change : σ → Except String σ} {s s' : σ} (accepted : change s = .ok s') :
    (tryWrite change).run s = .ok ((), s') := by
  simp [tryWrite, run, accepted, Except.map]

/-- Sequencing: the second program runs on the store the first one left. -/
theorem run_bind (program : Tx σ α) (f : α → Tx σ β) (s : σ) :
    (program >>= f).run s =
      match program.run s with
      | .ok (value, s') => (f value).run s'
      | .error message => .error message := by
  change (program.bind f).run s = _
  induction program generalizing s with
  | done value => rfl
  | throw message => rfl
  | statement exec next ih =>
    simp only [bind, run]
    cases exec s with
    | error message => rfl
    | ok reply => exact ih reply.1 reply.2

/-- A program whose first part returned goes on with its second part. -/
theorem run_bind_ok {program : Tx σ α} {f : α → Tx σ β} {s s' : σ} {value : α}
    (first : program.run s = .ok (value, s')) : (program >>= f).run s = (f value).run s' := by
  rw [run_bind, first]

@[simp] theorem run_ite (c : Prop) [Decidable c] (yes no : Tx σ α) (s : σ) :
    (if c then yes else no).run s = if c then yes.run s else no.run s := by
  split <;> rfl

/-- **A fault changes nothing but whether the program throws**: either it fires
and the program throws, or the program ended before reaching it. -/
theorem runFaulty_cases (program : Tx σ α) (index : ℕ) (message : String) (s : σ) :
    (∃ m, program.runFaulty index message s = .error m) ∨
      program.runFaulty index message s = program.run s := by
  induction program generalizing index s with
  | done value => exact Or.inr rfl
  | throw m => exact Or.inl ⟨m, rfl⟩
  | statement exec next ih =>
    cases index with
    | zero => exact Or.inl ⟨message, rfl⟩
    | succ index =>
      simp only [runFaulty, run]
      cases exec s with
      | error m => exact Or.inl ⟨m, rfl⟩
      | ok reply => exact ih reply.1 index reply.2

/-- Run a program with its fault, if it has one. -/
def attempt (fault : Option Fault) (program : Tx σ α) (s : σ) : Except String (α × σ) :=
  match fault with
  | none => program.run s
  | some fault => program.runFaulty fault.index fault.message s

end Tx

variable {σ α : Type}

/-- A transaction: the program's writes are kept when it returns, and the store
is left as it was when it throws. -/
def transaction (fault : Option Fault) (program : Tx σ α) (s : σ) : Except String α × σ :=
  match Tx.attempt fault program s with
  | .ok (value, s') => (.ok value, s')
  | .error message => (.error message, s)

/-- **Atomicity.** A transaction, faulty or not, either throws and leaves the
store as it was, or has exactly the effect of the fault-free program. -/
theorem transaction_cases (fault : Option Fault) (program : Tx σ α) (s : σ) :
    (∃ m, transaction fault program s = (.error m, s)) ∨
      ∃ value s', program.run s = .ok (value, s') ∧
        transaction fault program s = (.ok value, s') := by
  have outcome : (∃ m, Tx.attempt fault program s = .error m) ∨
      Tx.attempt fault program s = program.run s := by
    cases fault with
    | none => exact Or.inr rfl
    | some fault => exact Tx.runFaulty_cases program fault.index fault.message s
  rcases outcome with ⟨m, thrown⟩ | same
  · exact Or.inl ⟨m, by simp [transaction, thrown]⟩
  · cases ran : program.run s with
    | error m => exact Or.inl ⟨m, by simp [transaction, same, ran]⟩
    | ok reply => exact Or.inr ⟨reply.1, reply.2, rfl, by simp [transaction, same, ran]⟩

/-- Without a fault, a program that returns is committed. -/
theorem transaction_of_run {program : Tx σ α} {s s' : σ} {value : α}
    (ran : program.run s = .ok (value, s')) : transaction none program s = (.ok value, s') := by
  simp [transaction, Tx.attempt, ran]

end Relational
