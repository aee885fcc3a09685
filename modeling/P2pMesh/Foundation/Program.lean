import Mathlib.Data.List.Basic

/-! # Programs that ask their environment

A program returns, or it makes a request and goes on with the answer. What a request is
answered is not part of the program: a world is a relation between the state before a
request, the request, its answer and the state after it, and a program may be executed in
any world. An execution of a sequence of two programs is a sequence of two executions
(`Foundation.Program.executes_bind`).

Where nothing is said about the world, what a program can do is the set of its traces: the
requests in order, each with an answer (`Foundation.Program.traces_bind`).
-/

namespace Foundation

universe u v w x

/-- A program with the requests `Op`. -/
inductive Program (Op : Type u) (Answer : Op → Type v) (α : Type w) where
  | done (result : α)
  | ask (op : Op) (next : Answer op → Program Op Answer α)

namespace Program

variable {Op : Type u} {Answer : Op → Type v} {α β : Type w}

/-- Goes on with the result. -/
def andThen (p : Program Op Answer α) (next : α → Program Op Answer β) : Program Op Answer β :=
  match p with
  | .done result => next result
  | .ask op more => .ask op fun answer => (more answer).andThen next

instance : Monad (Program Op Answer) where
  pure := .done
  bind := andThen

/-- A request whose answer is the result. -/
def call (op : Op) : Program Op Answer (Answer op) :=
  .ask op .done

/-- A deferred request: it is made after the program, and its answer is dropped. -/
def deferring (op : Op) (p : Program Op Answer α) : Program Op Answer α :=
  p.andThen fun result => .ask op fun _ => .done result

/-- How a world answers: the state before, the request, the answer and the state after. -/
abbrev World (State : Type x) (Op : Type u) (Answer : Op → Type v) :=
  State → (op : Op) → Answer op → State → Prop

/-- A program is executed in a world, from a state, with a result and a state after it. -/
inductive Executes {State : Type x} (world : World State Op Answer) :
    Program Op Answer α → State → α → State → Prop where
  | done (result : α) (state : State) : Executes world (.done result) state result state
  | ask {op : Op} {next : Answer op → Program Op Answer α} {before middle after : State}
      {answer : Answer op} {result : α} :
      world before op answer middle →
      Executes world (next answer) middle result after →
      Executes world (.ask op next) before result after

section Executes

variable {State : Type x} {world : World State Op Answer} {before after : State}

/-- A program that is done has its result in the state it was given. -/
@[simp]
theorem executes_done {a result : α} :
    Executes world (.done a : Program Op Answer α) before result after ↔
      result = a ∧ after = before := by
  constructor
  · intro run
    cases run
    exact ⟨rfl, rfl⟩
  · rintro ⟨rfl, rfl⟩
    exact .done _ _

/-- `pure` has its result in the state it was given. -/
@[simp]
theorem executes_pure {a result : α} :
    Executes world (pure a : Program Op Answer α) before result after ↔
      result = a ∧ after = before :=
  executes_done

/-- A request is answered by the world, and the program goes on with the answer. -/
@[simp]
theorem executes_ask {op : Op} {next : Answer op → Program Op Answer α} {result : α} :
    Executes world (.ask op next) before result after ↔
      ∃ answer middle, world before op answer middle ∧
        Executes world (next answer) middle result after := by
  constructor
  · intro run
    cases run with
    | ask answered rest => exact ⟨_, _, answered, rest⟩
  · rintro ⟨answer, middle, answered, rest⟩
    exact .ask answered rest

/-- A sequence runs its parts one after the other. -/
theorem executes_andThen {p : Program Op Answer α} {next : α → Program Op Answer β} {result : β} :
    Executes world (p.andThen next) before result after ↔
      ∃ a middle, Executes world p before a middle ∧
        Executes world (next a) middle result after := by
  induction p generalizing before with
  | done a => simp [andThen]
  | ask op more ih =>
      simp only [andThen, executes_ask, ih]
      constructor
      · rintro ⟨answer, middle, answered, a, later, first, second⟩
        exact ⟨a, later, ⟨answer, middle, answered, first⟩, second⟩
      · rintro ⟨a, later, ⟨answer, middle, answered, first⟩, second⟩
        exact ⟨answer, middle, answered, a, later, first, second⟩

/-- A bind runs its parts one after the other. -/
@[simp]
theorem executes_bind {p : Program Op Answer α} {next : α → Program Op Answer β} {result : β} :
    Executes world (p >>= next) before result after ↔
      ∃ a middle, Executes world p before a middle ∧
        Executes world (next a) middle result after :=
  executes_andThen

/-- A request and what follows its answer. -/
theorem executes_call_bind {Answer : Op → Type w} {world : World State Op Answer} {op : Op}
    {next : Answer op → Program Op Answer β} {result : β} :
    Executes world (call op >>= next) before result after ↔
      ∃ answer middle, world before op answer middle ∧
        Executes world (next answer) middle result after :=
  executes_ask

/-- A deferred request is made after the program, whatever its result. -/
@[simp]
theorem executes_deferring {op : Op} {p : Program Op Answer α} {result : α} :
    Executes world (deferring op p) before result after ↔
      ∃ middle answer, Executes world p before result middle ∧ world middle op answer after := by
  simp only [deferring, executes_andThen, executes_ask, executes_done]
  constructor
  · rintro ⟨a, middle, run, answer, later, answered, rfl, rfl⟩
    exact ⟨middle, answer, run, answered⟩
  · rintro ⟨middle, answer, run, answered⟩
    exact ⟨result, middle, run, answer, after, answered, rfl, rfl⟩

/-- An execution in a world is one in every world that has its answers. -/
theorem Executes.mono {other : World State Op Answer} {p : Program Op Answer α} {result : α}
    (run : Executes world p before result after)
    (weaker : ∀ before op answer after, world before op answer after →
      other before op answer after) : Executes other p before result after := by
  induction run with
  | done => exact .done _ _
  | ask answered _ ih => exact .ask (weaker _ _ _ _ answered) ih

end Executes

/-- A program may make the requests of a trace, with these answers, and return a result. -/
inductive Traces : Program Op Answer α → List (Sigma Answer) → α → Prop where
  | done (result : α) : Traces (.done result) [] result
  | ask {op : Op} {next : Answer op → Program Op Answer α} {answer : Answer op}
      {trace : List (Sigma Answer)} {result : α} :
      Traces (next answer) trace result → Traces (.ask op next) (⟨op, answer⟩ :: trace) result

section Traces

variable {trace : List (Sigma Answer)}

/-- `pure` makes no request. -/
theorem traces_pure {a result : α} :
    Traces (pure a : Program Op Answer α) trace result ↔ trace = [] ∧ result = a := by
  constructor
  · intro run
    cases run
    exact ⟨rfl, rfl⟩
  · rintro ⟨rfl, rfl⟩
    exact .done _

/-- A request is the first of the trace. -/
theorem traces_ask {op : Op} {next : Answer op → Program Op Answer α} {result : α} :
    Traces (.ask op next) trace result ↔
      ∃ answer rest, trace = ⟨op, answer⟩ :: rest ∧ Traces (next answer) rest result := by
  constructor
  · intro run
    cases run with
    | ask rest => exact ⟨_, _, rfl, rest⟩
  · rintro ⟨answer, rest, rfl, run⟩
    exact .ask run

/-- The trace of a bind is that of its parts, one after the other. -/
theorem traces_bind {p : Program Op Answer α} {next : α → Program Op Answer β} {result : β} :
    Traces (p >>= next) trace result ↔
      ∃ a first second, trace = first ++ second ∧ Traces p first a ∧
        Traces (next a) second result := by
  change Traces (p.andThen next) trace result ↔ _
  induction p generalizing trace with
  | done a =>
      constructor
      · exact fun run => ⟨a, [], trace, rfl, .done a, run⟩
      · rintro ⟨_, _, _, rfl, run, rest⟩
        cases run
        exact rest
  | ask op more ih =>
      simp only [andThen, traces_ask, ih]
      constructor
      · rintro ⟨answer, _, rfl, a, first, second, rfl, run, rest⟩
        exact ⟨a, _ :: first, second, rfl, ⟨answer, first, rfl, run⟩, rest⟩
      · rintro ⟨a, _, second, rfl, ⟨answer, first, rfl, run⟩, rest⟩
        exact ⟨answer, first ++ second, rfl, a, first, second, rfl, run, rest⟩

/-- A request and what follows its answer. -/
theorem traces_call_bind {Answer : Op → Type w} {trace : List (Sigma Answer)} {op : Op}
    {next : Answer op → Program Op Answer β} {result : β} :
    Traces (call op >>= next) trace result ↔
      ∃ answer rest, trace = ⟨op, answer⟩ :: rest ∧ Traces (next answer) rest result :=
  traces_ask

/-- A deferred request is the last of the trace. -/
theorem traces_deferring {op : Op} {p : Program Op Answer α} {result : α} :
    Traces (deferring op p) trace result ↔
      ∃ first answer, trace = first ++ [⟨op, answer⟩] ∧ Traces p first result := by
  have steps : deferring op p = p >>= fun result => .ask op fun _ => pure result := rfl
  rw [steps, traces_bind]
  constructor
  · rintro ⟨a, first, second, rfl, run, rest⟩
    obtain ⟨answer, last, rfl, ended⟩ := traces_ask.mp rest
    obtain ⟨rfl, rfl⟩ := traces_pure.mp ended
    exact ⟨first, answer, rfl, run⟩
  · rintro ⟨first, answer, rfl, run⟩
    exact ⟨result, first, _, rfl, run,
      traces_ask.mpr ⟨answer, [], rfl, traces_pure.mpr ⟨rfl, rfl⟩⟩⟩

/-- Every request meets a condition and every result a postcondition. -/
def Always (allowed : Op → Prop) (post : α → Prop) : Program Op Answer α → Prop
  | .done result => post result
  | .ask op next => allowed op ∧ ∀ answer, (next answer).Always allowed post

variable {allowed : Op → Prop} {post : α → Prop}

theorem always_pure {a : α} (holds : post a) :
    Always allowed post (pure a : Program Op Answer α) :=
  holds

/-- A request that is allowed may be followed by a program that is. -/
theorem always_call_bind {Answer : Op → Type w} {op : Op}
    {next : Answer op → Program Op Answer α} (asked : allowed op)
    (rest : ∀ answer, (next answer).Always allowed post) :
    (call op >>= next).Always allowed post :=
  ⟨asked, rest⟩

/-- The rule of composition. -/
theorem always_bind {p : Program Op Answer α} {next : α → Program Op Answer β} {post : β → Prop}
    (run : p.Always allowed fun a => (next a).Always allowed post) :
    (p >>= next).Always allowed post := by
  induction p with
  | done a => exact run
  | ask op more ih => exact ⟨run.1, fun answer => ih answer (run.2 answer)⟩

/-- A program that is always within its bounds makes allowed requests only, and its results hold. -/
theorem Always.of_traces {p : Program Op Answer α} (always : p.Always allowed post) {result : α}
    (run : Traces p trace result) : (∀ event ∈ trace, allowed event.1) ∧ post result := by
  induction run with
  | done => exact ⟨nofun, always⟩
  | ask _ ih =>
      obtain ⟨rest, holds⟩ := ih (always.2 _)
      exact ⟨List.forall_mem_cons.mpr ⟨always.1, rest⟩, holds⟩

end Traces

end Program

end Foundation
