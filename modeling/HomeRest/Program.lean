import Mathlib.Logic.Function.Basic
import Mathlib.Tactic

/-! Programs over atomic calls, and their interleavings.
A program returns, raises, or issues one call and goes on with its answer. The same
term is run alone against a server of the calls, or as one thread among others that
share the server's state; each call is one atomic step in both. -/
namespace AtomicProgram

/-- `next` receives what the call returns or the exception it raises. -/
inductive Program (Op : Type) (Ans : Op → Type) (ε α : Type) where
  | ret (a : α)
  | raise (e : ε)
  | call (op : Op) (next : Except ε (Ans op) → Program Op Ans ε α)

/-- A server answers a call and moves the shared state. -/
abbrev Server (Op : Type) (Ans : Op → Type) (ε σ : Type) :=
  (op : Op) → σ → Except ε (Ans op) × σ

variable {Op : Type} {Ans : Op → Type} {ε α β γ σ : Type}

namespace Program

/-- Go on after both ways of ending; sequencing and handlers are its two instances. -/
def cont : Program Op Ans ε α → (α → Program Op Ans ε β) → (ε → Program Op Ans ε β) →
    Program Op Ans ε β
  | .ret a, f, _ => f a
  | .raise e, _, h => h e
  | .call op next, f, h => .call op fun r => (next r).cont f h

def handle (p : Program Op Ans ε α) (h : ε → Program Op Ans ε α) : Program Op Ans ε α :=
  p.cont .ret h

instance : Monad (Program Op Ans ε) where
  pure := .ret
  bind p f := p.cont f .raise

def perform (op : Op) : Program Op Ans ε (Ans op) :=
  .call op fun
    | .ok a => .ret a
    | .error e => .raise e

def ofExcept : Except ε α → Program Op Ans ε α
  | .ok a => .ret a
  | .error e => .raise e

@[simp] theorem pure_def (a : α) : (pure a : Program Op Ans ε α) = .ret a := rfl
@[simp] theorem bind_def (p : Program Op Ans ε α) (f : α → Program Op Ans ε β) :
    p >>= f = p.cont f .raise := rfl
@[simp] theorem ret_cont (a : α) (f : α → Program Op Ans ε β) (h : ε → Program Op Ans ε β) :
    (ret a : Program Op Ans ε α).cont f h = f a := rfl
@[simp] theorem raise_cont (e : ε) (f : α → Program Op Ans ε β) (h : ε → Program Op Ans ε β) :
    (raise e : Program Op Ans ε α).cont f h = h e := rfl
@[simp] theorem call_cont (op : Op) (next : Except ε (Ans op) → Program Op Ans ε α)
    (f : α → Program Op Ans ε β) (h : ε → Program Op Ans ε β) :
    (call op next).cont f h = .call op fun r => (next r).cont f h := rfl
@[simp] theorem ofExcept_ok (a : α) : (ofExcept (.ok a) : Program Op Ans ε α) = .ret a := rfl
@[simp] theorem ofExcept_error (e : ε) :
    (ofExcept (.error e) : Program Op Ans ε α) = .raise e := rfl

theorem ofExcept_bind (x : Except ε α) (f : α → Except ε β) :
    (ofExcept (x >>= f) : Program Op Ans ε β) = (ofExcept x).cont (fun a => ofExcept (f a)) .raise := by
  cases x <;> rfl
theorem ofExcept_map_cont (x : Except ε α) (f : α → β) (g : β → Program Op Ans ε γ)
    (h : ε → Program Op Ans ε γ) :
    (ofExcept (x.map f) : Program Op Ans ε β).cont g h = (ofExcept x).cont (fun a => g (f a)) h := by
  cases x <;> rfl

theorem cont_cont (p : Program Op Ans ε α) (f : α → Program Op Ans ε β)
    (h : ε → Program Op Ans ε β) (f' : β → Program Op Ans ε γ) (h' : ε → Program Op Ans ε γ) :
    (p.cont f h).cont f' h' = p.cont (fun a => (f a).cont f' h') (fun e => (h e).cont f' h') := by
  induction p with
  | ret a => rfl
  | raise e => rfl
  | call op next ih => simp only [call_cont,ih]

theorem perform_cont (op : Op) (f : Ans op → Program Op Ans ε β) (h : ε → Program Op Ans ε β) :
    (perform op).cont f h = .call op fun
      | .ok a => f a
      | .error e => h e := by
  simp only [perform,call_cont,call.injEq,heq_eq_eq,true_and]
  funext r
  cases r <;> rfl

/-- Run alone: nothing else moves the state between two calls. -/
def run (serve : Server Op Ans ε σ) : Program Op Ans ε α → σ → Except ε α × σ
  | .ret a, s => (.ok a,s)
  | .raise e, s => (.error e,s)
  | .call op next, s => (next (serve op s).1).run serve (serve op s).2

section Run

variable (serve : Server Op Ans ε σ)

@[simp] theorem run_ret (a : α) (s : σ) : (ret a : Program Op Ans ε α).run serve s = (.ok a,s) := rfl
@[simp] theorem run_raise (e : ε) (s : σ) :
    (raise e : Program Op Ans ε α).run serve s = (.error e,s) := rfl
@[simp] theorem run_call (op : Op) (next : Except ε (Ans op) → Program Op Ans ε α) (s : σ) :
    (call op next).run serve s = (next (serve op s).1).run serve (serve op s).2 := rfl

theorem run_cont (p : Program Op Ans ε α) (f : α → Program Op Ans ε β)
    (h : ε → Program Op Ans ε β) (s : σ) :
    (p.cont f h).run serve s =
      match p.run serve s with
      | (.ok a,t) => (f a).run serve t
      | (.error e,t) => (h e).run serve t := by
  induction p generalizing s with
  | ret a => rfl
  | raise e => rfl
  | call op next ih => exact ih _ _

theorem run_cont_ok {p : Program Op Ans ε α} {f : α → Program Op Ans ε β}
    {h : ε → Program Op Ans ε β} {s t : σ} {a : α} (hp : p.run serve s = (.ok a,t)) :
    (p.cont f h).run serve s = (f a).run serve t := by
  rw [run_cont,hp]

theorem run_cont_error {p : Program Op Ans ε α} {f : α → Program Op Ans ε β}
    {h : ε → Program Op Ans ε β} {s t : σ} {e : ε} (hp : p.run serve s = (.error e,t)) :
    (p.cont f h).run serve s = (h e).run serve t := by
  rw [run_cont,hp]

theorem run_bind_ok {p : Program Op Ans ε α} {f : α → Program Op Ans ε β} {s u : σ} {b : β} :
    (p.cont f .raise).run serve s = (.ok b,u) ↔
      ∃ a t, p.run serve s = (.ok a,t) ∧ (f a).run serve t = (.ok b,u) := by
  rw [run_cont]
  cases h : p.run serve s with
  | mk r t => cases r <;> simp

@[simp] theorem run_perform (op : Op) (s : σ) : (perform op).run serve s = serve op s := by
  cases h : (serve op s).1 <;> simp [perform,h,Prod.ext_iff]

@[simp] theorem run_ofExcept (x : Except ε α) (s : σ) :
    (ofExcept x : Program Op Ans ε α).run serve s = (x,s) := by
  cases x <;> rfl

theorem failed_eq {x : Except ε α × σ} (h : x.1.isOk = false) : ∃ e, x = (.error e,x.2) := by
  obtain ⟨r,s⟩ := x
  cases r with
  | error e => exact ⟨e,rfl⟩
  | ok a => simp [Except.isOk,Except.toBool] at h

end Run

def Done : Program Op Ans ε α → Prop
  | .call _ _ => False
  | _ => True

instance : DecidablePred (Done : Program Op Ans ε α → Prop)
  | .ret _ => isTrue trivial
  | .raise _ => isTrue trivial
  | .call _ _ => isFalse id

def nextOp : Program Op Ans ε α → Option Op
  | .call op _ => some op
  | _ => none

end Program
end AtomicProgram
