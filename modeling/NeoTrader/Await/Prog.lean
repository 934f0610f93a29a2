import Mathlib.Logic.Basic
import Mathlib.Tactic.Common

/-!
# Programs split at their awaits

An asynchronous function runs from one `await` to the next without being interrupted. `Prog S α`
is such a function cut at its awaits: it returns, throws, or awaits one operation of the signature
`S` and goes on with the outcome of that operation (an answer or an error).

* `Sig`, `Prog`, `Prog.bind`, the `Monad` instance and its laws;
* `perform` awaits one operation and lets its error through, `attempt` is a `try`/`catch`;
* `Emb`, `Prog.embed`: a program over one signature used inside a program over a larger one.
-/

namespace Await

/-- A signature of awaited operations: their answers, and the type of thrown values. -/
structure Sig where
  Op : Type
  Ans : Op → Type
  Err : Type

/-- The outcome of one operation: its answer, or the error it was rejected with. -/
abbrev Sig.Outcome (S : Sig) (op : S.Op) : Type := Except S.Err (S.Ans op)

/-- **A program split at its awaits.** -/
inductive Prog (S : Sig) (α : Type) : Type
  | ret (a : α)
  | throw (e : S.Err)
  | await (op : S.Op) (k : S.Outcome op → Prog S α)

namespace Prog

variable {S : Sig} {α β γ : Type}

/-- Run `p`, then `f` on its result; a thrown error ends the whole program. -/
def bind : Prog S α → (α → Prog S β) → Prog S β
  | .ret a, f => f a
  | .throw e, _ => .throw e
  | .await op k, f => .await op fun r => (k r).bind f

instance : Monad (Prog S) where
  pure := .ret
  bind := bind

@[simp] theorem pure_eq (a : α) : (pure a : Prog S α) = .ret a := rfl

@[simp] theorem ret_bind (a : α) (f : α → Prog S β) : (Prog.ret a >>= f) = f a := rfl

@[simp] theorem throw_bind (e : S.Err) (f : α → Prog S β) : (Prog.throw e >>= f) = .throw e := rfl

@[simp] theorem await_bind (op : S.Op) (k : S.Outcome op → Prog S α) (f : α → Prog S β) :
    (Prog.await op k >>= f) = .await op fun r => k r >>= f := rfl

theorem bind_assoc' (p : Prog S α) (f : α → Prog S β) (g : β → Prog S γ) :
    (p >>= f >>= g) = p >>= fun a => f a >>= g := by
  induction p with
  | ret a => rfl
  | throw e => rfl
  | await op k ih => simp only [await_bind, ih]

theorem bind_ret' (p : Prog S α) : (p >>= Prog.ret) = p := by
  induction p with
  | ret a => rfl
  | throw e => rfl
  | await op k ih => simp only [await_bind, ih]

instance : LawfulMonad (Prog S) :=
  LawfulMonad.mk' (Prog S) bind_ret' (fun _ _ => rfl) bind_assoc'

/-- Continue with the outcome of one operation: an answer returns, an error throws. -/
def ofOutcome : Except S.Err α → Prog S α
  | .ok a => .ret a
  | .error e => .throw e

@[simp] theorem ofOutcome_ok (a : α) : (ofOutcome (.ok a) : Prog S α) = .ret a := rfl
@[simp] theorem ofOutcome_error (e : S.Err) : (ofOutcome (.error e) : Prog S α) = .throw e := rfl

/-- Await one operation; its error, if any, is thrown. -/
def perform (op : S.Op) : Prog S (S.Ans op) := .await op ofOutcome

/-- `try { … } catch`: the outcome of `p` as a value. -/
def attempt : Prog S α → Prog S (Except S.Err α)
  | .ret a => .ret (.ok a)
  | .throw e => .ret (.error e)
  | .await op k => .await op fun r => (k r).attempt

@[simp] theorem attempt_ret (a : α) : (Prog.ret a : Prog S α).attempt = .ret (.ok a) := rfl
@[simp] theorem attempt_throw (e : S.Err) :
    (Prog.throw e : Prog S α).attempt = .ret (.error e) := rfl
@[simp] theorem attempt_await (op : S.Op) (k : S.Outcome op → Prog S α) :
    (Prog.await op k).attempt = .await op fun r => (k r).attempt := rfl

@[simp] theorem attempt_ofOutcome (r : Except S.Err α) :
    (ofOutcome r : Prog S α).attempt = .ret r := by
  cases r <;> rfl

theorem attempt_perform (op : S.Op) : (perform op).attempt = .await op .ret := by
  simp [perform]

/-- Await the same program for every element of a list, in order. -/
def forEach (l : List β) (f : β → Prog S Unit) : Prog S Unit :=
  match l with
  | [] => .ret ()
  | b :: l => f b >>= fun _ => forEach l f

@[simp] theorem forEach_nil (f : β → Prog S Unit) : forEach [] f = .ret () := rfl
@[simp] theorem forEach_cons (b : β) (l : List β) (f : β → Prog S Unit) :
    forEach (b :: l) f = f b >>= fun _ => forEach l f := rfl

/-- Await the same program for every element of a list, collecting the results in order. -/
def collect (l : List β) (f : β → Prog S α) : Prog S (List α) :=
  match l with
  | [] => .ret []
  | b :: l => f b >>= fun a => collect l f >>= fun as => .ret (a :: as)

@[simp] theorem collect_nil (f : β → Prog S α) : collect [] f = .ret [] := rfl
@[simp] theorem collect_cons (b : β) (l : List β) (f : β → Prog S α) :
    collect (b :: l) f = f b >>= fun a => collect l f >>= fun as => .ret (a :: as) := rfl

/-- Nothing is left to be awaited. -/
def finished : Prog S α → Bool
  | .await _ _ => false
  | _ => true

/-- Forget the result. -/
def discard (p : Prog S α) : Prog S Unit := p >>= fun _ => .ret ()

end Prog

/-! ## A signature inside a larger one -/

/-- An embedding of the operations of `S` into those of `T`. -/
structure Emb (S T : Sig) where
  op : S.Op → T.Op
  back : ∀ o, T.Outcome (op o) → S.Outcome o
  err : S.Err → T.Err

/-- The program over the larger signature. -/
def Prog.embed {S T : Sig} {α : Type} (e : Emb S T) : Prog S α → Prog T α
  | .ret a => .ret a
  | .throw x => .throw (e.err x)
  | .await o k => .await (e.op o) fun r => (k (e.back o r)).embed e

end Await
