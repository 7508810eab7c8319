import EventEngine.Relational.Transactions

/-! Transactions among others. A program guarantees a property of the store when
each of its statements keeps it. It relies on the others for no more than that
they keep it as well: whatever they change between two of its statements, the
guarantee stands. -/
namespace Relational.Tx

variable {σ α β : Type}

/-- From every store with the property, a statement leads to one with it, and
what the program returns is as `result` says. -/
def Guarantees (I : σ → Prop) (result : α → Prop) : Tx σ α → Prop
  | .done value => result value
  | .throw _ => True
  | .statement exec next => ∀ s, I s → ∀ reply s', exec s = .ok (reply, s') →
      I s' ∧ (next reply).Guarantees I result

namespace Guarantees
variable {I : σ → Prop} {result : α → Prop} {result' : β → Prop}

theorem done {value : α} (holds : result value) : (pure value : Tx σ α).Guarantees I result := holds

theorem throw (message : String) : (.throw message : Tx σ α).Guarantees I result := trivial

theorem bind {program : Tx σ α} {f : α → Tx σ β} (first : program.Guarantees I result)
    (second : ∀ value, result value → (f value).Guarantees I result') : (program >>= f).Guarantees I result' := by
  change (program.bind f).Guarantees I result'
  induction program with
  | done value => exact second value first
  | throw message => trivial
  | statement exec next ih =>
    intro s holds reply s' ran
    obtain ⟨kept, rest⟩ := first s holds reply s' ran
    exact ⟨kept, ih reply rest⟩

/-- A program that begins with a read goes on with what a store with the property
can answer. -/
theorem read_bind {query : σ → α} {f : α → Tx σ β} (rest : ∀ s, I s → (f (query s)).Guarantees I result') :
    (read query >>= f).Guarantees I result' := by
  intro s holds reply s' ran
  obtain ⟨rfl, rfl⟩ := Prod.mk.inj (Except.ok.inj ran)
  exact ⟨holds, rest s holds⟩

theorem write {change : σ → σ} (keeps : ∀ s, I s → I (change s)) :
    (Tx.write change).Guarantees I fun _ => True := by
  intro s holds reply s' ran
  obtain ⟨-, rfl⟩ := Prod.mk.inj (Except.ok.inj ran)
  exact ⟨keeps s holds, trivial⟩

theorem tryWrite {change : σ → Except String σ} (keeps : ∀ s s', I s → change s = .ok s' → I s') :
    (Tx.tryWrite change).Guarantees I fun _ => True := by
  intro s holds reply s' ran
  cases written : change s with
  | error message => simp [written, Except.map] at ran
  | ok t =>
    simp only [written, Except.map, Except.ok.injEq, Prod.mk.injEq, true_and] at ran
    subst ran
    exact ⟨keeps s t holds written, trivial⟩

end Guarantees
end Relational.Tx
