import EventEngine.Relational.Interleaving

/-! A program logic for transactions. A triple says of a program not only what
holds when it returns, but what holds of every store it passes through, so that
it speaks about a database that checks its constraints statement by statement. -/
namespace Relational.Tx

variable {σ α β : Type}

/-- From this store, every store the program passes through has the property
`I`, and `post` holds when it returns. -/
def Meets (I : σ → Prop) (post : α → σ → Prop) : Tx σ α → σ → Prop
  | .done value, s => I s ∧ post value s
  | .throw _, s => I s
  | .statement exec next, s => I s ∧ ∀ reply s', exec s = .ok (reply, s') → (next reply).Meets I post s'

/-- `{pre} program {post}`, with `I` throughout. -/
def Triple (I pre : σ → Prop) (program : Tx σ α) (post : α → σ → Prop) : Prop :=
  ∀ s, pre s → program.Meets I post s

variable {I pre pre' : σ → Prop} {post : α → σ → Prop} {program : Tx σ α}

/-! ## What a triple means -/

theorem Meets.holds {s : σ} (meets : program.Meets I post s) : I s := by
  cases program with
  | done value => exact meets.1
  | throw message => exact meets
  | statement exec next => exact meets.1

/-- **A triple holds at every statement**: wherever its statements have led a
program, the property holds and the rest of the program still meets it. -/
theorem Meets.advances {start s : σ} {rest : Tx σ α} (meets : program.Meets I post start)
    (advances : Advances program start rest s) : I s ∧ rest.Meets I post s := by
  induction advances with
  | begun => exact ⟨meets.holds, meets⟩
  | advanced _ ran ih =>
    have later := ih.2.2 _ _ ran
    exact ⟨later.holds, later⟩

/-- What a program that returns leaves behind. -/
theorem Meets.returned {s s' : σ} {value : α} (meets : program.Meets I post s)
    (ran : program.run s = .ok (value, s')) : I s' ∧ post value s' := by
  induction program generalizing s with
  | done value' =>
    obtain ⟨rfl, rfl⟩ := Prod.mk.inj (Except.ok.inj ran)
    exact meets
  | throw message => cases ran
  | statement exec next ih =>
    rw [run] at ran
    split at ran
    · rename_i reply t done
      exact ih reply (meets.2 reply t done) ran
    · cases ran

theorem Meets.bind {f : α → Tx σ β} {post : β → σ → Prop} {middle : α → σ → Prop} {s : σ}
    (first : program.Meets I middle s) (second : ∀ value s, middle value s → (f value).Meets I post s) :
    (program >>= f).Meets I post s := by
  change (program.bind f).Meets I post s
  induction program generalizing s with
  | done value => exact second value s first.2
  | throw message => exact first
  | statement exec next ih => exact ⟨first.1, fun reply s' ran => ih reply (first.2 reply s' ran)⟩

namespace Triple

/-! ## Rules -/

theorem strengthen (triple : Triple I pre program post) (stronger : ∀ s, pre' s → pre s) : Triple I pre' program post :=
  fun s holds => triple s (stronger s holds)

/-- A fact about a value may be taken out of the precondition. -/
theorem assuming {fact : Prop} (triple : fact → Triple I pre program post) :
    Triple I (fun s => pre s ∧ fact) program post :=
  fun s holds => triple holds.2 s holds.1

theorem bind {f : α → Tx σ β} {post : β → σ → Prop} {middle : α → σ → Prop} (first : Triple I pre program middle)
    (second : ∀ value, Triple I (middle value) (f value) post) : Triple I pre (program >>= f) post :=
  fun s holds => (first s holds).bind fun value s' => second value s'

/-- A program that goes on after one that keeps its precondition. -/
theorem seq {f : α → Tx σ β} {post : β → σ → Prop} (first : Triple I pre program fun _ => pre)
    (second : ∀ value, Triple I pre (f value) post) : Triple I pre (program >>= f) post :=
  first.bind second

theorem done {value : α} (invariant : ∀ s, pre s → I s) (holds : ∀ s, pre s → post value s) :
    Triple I pre (pure value : Tx σ α) post :=
  fun s assumed => ⟨invariant s assumed, holds s assumed⟩

theorem throw {message : String} (invariant : ∀ s, pre s → I s) : Triple I pre (.throw message) post :=
  fun s holds => invariant s holds

/-- A program that begins with a read goes on with what the read can return. -/
theorem read {query : σ → α} {f : α → Tx σ β} {post : β → σ → Prop} (invariant : ∀ s, pre s → I s)
    (rest : ∀ value, Triple I (fun s => pre s ∧ query s = value) (f value) post) :
    Triple I pre (Tx.read query >>= f) post := by
  intro s holds
  refine ⟨invariant s holds, fun reply s' ran => ?_⟩
  obtain ⟨rfl, rfl⟩ := Prod.mk.inj (Except.ok.inj ran)
  exact rest _ s ⟨holds, rfl⟩

theorem write {change : σ → σ} {post : σ → Prop} (invariant : ∀ s, pre s → I s) (after : ∀ s, post s → I s)
    (changes : ∀ s, pre s → post (change s)) : Triple I pre (Tx.write change) fun _ => post := by
  intro s holds
  refine ⟨invariant s holds, fun reply s' ran => ?_⟩
  obtain ⟨-, rfl⟩ := Prod.mk.inj (Except.ok.inj ran)
  exact ⟨after _ (changes s holds), changes s holds⟩

theorem tryWrite {change : σ → Except String σ} {post : σ → Prop} (invariant : ∀ s, pre s → I s)
    (after : ∀ s, post s → I s) (changes : ∀ s s', pre s → change s = .ok s' → post s') :
    Triple I pre (Tx.tryWrite change) fun _ => post := by
  intro s holds
  refine ⟨invariant s holds, fun reply s' ran => ?_⟩
  cases written : change s with
  | error message => simp [written, Except.map] at ran
  | ok t =>
    simp only [written, Except.map, Except.ok.injEq, Prod.mk.injEq, true_and] at ran
    subst ran
    have changed := changes s t holds written
    exact ⟨after t changed, changed⟩

end Triple
end Relational.Tx
