/-
What can be asked of a session, and what a listener may do when it is told of the focus. A policy can be replaced, which
leaves tracking as it is, or updated, which makes tracking follow. A `Callback` is a program: it looks at the session,
keeps something in mind, makes calls and goes on by their answers, and ends after finitely many steps. Its calls are
calls like any other, so they may start rounds of their own.
-/
import InputRelay.Session.World

namespace InputRelay.Session

/-- what can be asked of a session -/
inductive Call where
  | focus (call : FocusCall)
  | replacePolicy (policy : Policy)
  | updatePolicy (policy : Policy)
  | dispatch (request : Request)
  | start
  | stop
  | inject (request : Request)
  | receive (slot : Nat)
  | dropReceiver (slot : Nat)
  | pump (slot : Nat)
  | closeSink
deriving DecidableEq, Repr

/-- what a listener does when it is told of the focus -/
inductive Callback (μ : Type) where
  | done
  | look (next : View μ → Callback μ)
  | keep (memory : μ) (next : Callback μ)
  | call (c : Call) (next : Answer → Callback μ)

/-- what a session does not decide: how the clock reads, reading after reading, and what each listener does when told -/
structure Surroundings (μ : Type) where
  clock : Nat → Int64
  callback : Listener → Display → Callback μ

end InputRelay.Session
