import EventEngine.Relational.Transactions

/-! Transactions one statement at a time. Between two statements of a program
somebody else may change the store; a program that is oblivious of the change
gets as far as it would have got had the change come before it began. -/
namespace Relational.Tx

variable {σ α β : Type}

/-- From one store, the first statements of a program have led to another, and
this is what remains of the program. -/
inductive Advances (program : Tx σ α) (start : σ) : Tx σ α → σ → Prop where
  | begun : Advances program start program start
  | advanced {γ : Type} {exec : σ → Except String (γ × σ)} {next : γ → Tx σ α} {s s' : σ} {reply : γ}
      (prior : Advances program start (.statement exec next) s) (ran : exec s = .ok (reply, s')) :
      Advances program start (next reply) s'

/-- Where a program ends does not depend on how far it has got. -/
theorem Advances.run_eq {program rest : Tx σ α} {start s : σ} (advances : Advances program start rest s) :
    program.run start = rest.run s := by
  induction advances with
  | begun => rfl
  | advanced _ ran ih => rw [ih, run, ran]

/-- From stores with the property, no statement of the program notices whether
the change has already been made. -/
def Oblivious (I : σ → Prop) (change : σ → σ) : Tx σ α → Prop
  | .done _ => True
  | .throw _ => True
  | .statement exec next => ∀ s, I s → ∀ reply s', exec s = .ok (reply, s') →
      I s' ∧ exec (change s) = .ok (reply, change s') ∧ (next reply).Oblivious I change

variable {I : σ → Prop} {change : σ → σ}

/-- **A change may come first**: made in the middle of an oblivious program, it
might as well have been made before. -/
theorem Advances.changed {program rest : Tx σ α} {start s : σ} (oblivious : program.Oblivious I change) (holds : I start)
    (advances : Advances program start rest s) :
    Advances program (change start) rest (change s) ∧ I s ∧ rest.Oblivious I change := by
  induction advances with
  | begun => exact ⟨.begun, holds, oblivious⟩
  | advanced _ ran ih =>
    obtain ⟨moved, kept, rest⟩ := ih
    obtain ⟨kept', ran', rest'⟩ := rest _ kept _ _ ran
    exact ⟨moved.advanced ran', kept', rest'⟩

namespace Oblivious

theorem bind {program : Tx σ α} {f : α → Tx σ β} (first : program.Oblivious I change)
    (second : ∀ value, (f value).Oblivious I change) : (program >>= f).Oblivious I change := by
  change (program.bind f).Oblivious I change
  induction program with
  | done value => exact second value
  | throw message => trivial
  | statement exec next ih =>
    intro s holds reply s' ran
    obtain ⟨kept, ran', rest⟩ := first s holds reply s' ran
    exact ⟨kept, ran', ih reply rest⟩

/-- A program that begins with a read goes on with what the read can return. -/
theorem read_bind {query : σ → α} {f : α → Tx σ β} (same : ∀ s, I s → query (change s) = query s)
    (rest : ∀ s, I s → (f (query s)).Oblivious I change) : (read query >>= f).Oblivious I change := by
  intro s holds reply s' ran
  obtain ⟨rfl, rfl⟩ := Prod.mk.inj (Except.ok.inj ran)
  exact ⟨holds, by simp only [same s holds], rest s holds⟩

theorem read {query : σ → α} (same : ∀ s, I s → query (change s) = query s) : (Tx.read query).Oblivious I change := by
  intro s holds reply s' ran
  obtain ⟨rfl, rfl⟩ := Prod.mk.inj (Except.ok.inj ran)
  exact ⟨holds, by simp only [same s holds], trivial⟩

theorem tryWrite {write : σ → Except String σ}
    (commutes : ∀ s s', I s → write s = .ok s' → I s' ∧ write (change s) = .ok (change s')) :
    (Tx.tryWrite write).Oblivious I change := by
  intro s holds reply s' ran
  cases written : write s with
  | error message => simp [written, Except.map] at ran
  | ok t =>
    simp only [written, Except.map, Except.ok.injEq, Prod.mk.injEq, true_and] at ran
    subst ran
    obtain ⟨kept, written'⟩ := commutes s t holds written
    exact ⟨kept, by simp [written', Except.map], trivial⟩

theorem write {write : σ → σ} (commutes : ∀ s, I s → I (write s) ∧ write (change s) = change (write s)) :
    (Tx.write write).Oblivious I change := by
  intro s holds reply s' ran
  obtain ⟨-, rfl⟩ := Prod.mk.inj (Except.ok.inj ran)
  obtain ⟨kept, same⟩ := commutes s holds
  exact ⟨kept, by simp only [same], trivial⟩

end Oblivious
end Relational.Tx
