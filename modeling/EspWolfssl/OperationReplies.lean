import EspWolfssl.BackendSteps
import EspWolfssl.Noninterference

/-!
What the operations return to their callers. Running an operation for its reply
leads to the state that the step relation gives for it.
-/
namespace EspWolfssl.OperationReplies

open ByteRegions Platform ProgramLogic BackendState PskClient HandleCreation ConnectionIo
  GlobalStore BackendSteps GuardedRuns Noninterference

variable {b : Build}

/-- The returned value of an operation, by its type in the table of operations. -/
inductive Reply
  | code (e : EspErr)
  | number (r : Int32)
  | psk (ans : PskAnswer)
  | block (store : Option (List UInt8))
  | void
deriving DecidableEq

/-- Run an operation, and keep its reply and the state it returns in. -/
def answering {α : Type} (m : Backend b α) (reply : α → Reply) (after : α → World b → World b)
    (w : World b) : Option (Reply × World b) :=
  match m w with
  | (.ok a, w') => some (reply a, after a w')
  | (.error _, _) => none

def react (w : World b) : Op → Option (Reply × World b)
  | .createSslHandle h role sockfd hostname cfg ans =>
      answering (espWolfsslCreateSslHandle h hostname cfg ans) .code
        (fun ret w' => w'.record h (.opened cfg (ret == .ok))) (w.setEndpoint h role sockfd)
  | .serverSessionCreate h cfg sockfd ans accepts =>
      answering (espWolfsslServerSessionCreate h cfg sockfd ans accepts) .number
        (fun ret w' => match cfg with
          | some cfg => recordAt h (.opened (.server cfg) (ret == 0)) w'
          | none => w') w
  | .handshake h cfg ans flags =>
      answering (espWolfsslHandshake h cfg ans flags) .number (fun _ => id) w
  | .read h datalen ans => answering (espWolfsslRead h datalen ans) .number (fun _ => id) w
  | .write h datalen ans => answering (espWolfsslWrite h datalen ans) .number (fun _ => id) w
  | .connDelete h => some (.void, recordAt h .deleted (espWolfsslConnDelete h w))
  | .serverSessionDelete h => some (.void, recordAt h .deleted (espWolfsslServerSessionDelete h w))
  | .pskClientCb h identity idMaxLen key keyMaxLen =>
      if b.pskVerification = true ∧ CallbackInstalled w h then
        answering (espWolfsslPskClientCb h identity idMaxLen key keyMaxLen) .psk
          (fun ans w' => w'.record h (.pskAnswered ans.len ans.identity ans.key)) w
      else none
  | .initGlobalCaStore => answering espWolfsslInitGlobalCaStore .code (fun _ => id) w
  | .setGlobalCaStore cacertPemBuf malloc =>
      answering (espWolfsslSetGlobalCaStore cacertPemBuf malloc) .code (fun _ => id) w
  | .getGlobalCaStore => answering espWolfsslGetGlobalCaStore .block (fun _ => id) w
  | .freeGlobalCaStore => some (.void, espWolfsslFreeGlobalCaStore w)

theorem answering_state {α : Type} (m : Backend b α) (reply : α → Reply)
    (after : α → World b → World b) (w : World b) :
    (answering m reply after w).map Prod.snd = returning m after w := by
  unfold answering returning
  rcases m w with ⟨r, w'⟩
  cases r <;> rfl

theorem answering_eq_some {α : Type} {m : Backend b α} {reply : α → Reply}
    {after : α → World b → World b} {w w' : World b} {r : Reply} :
    answering m reply after w = some (r, w') ↔
      ∃ a w₁, m w = (.ok a, w₁) ∧ r = reply a ∧ w' = after a w₁ := by
  unfold answering
  rcases m w with ⟨x, w₁⟩
  cases x <;> simp [eq_comm]

/-- Without its reply an operation is a step. -/
theorem react_state (w : World b) (op : Op) : (react w op).map Prod.snd = step w op := by
  cases op with
  | connDelete h => rfl
  | serverSessionDelete h => rfl
  | freeGlobalCaStore => rfl
  | initGlobalCaStore => rfl
  | getGlobalCaStore => rfl
  | pskClientCb h identity idMaxLen key keyMaxLen =>
    simp only [react, step]
    split
    · exact answering_state _ _ _ _
    · rfl
  | _ => exact answering_state _ _ _ _

theorem step_of_react {w w' : World b} {op : Op} {r : Reply} (hreact : react w op = some (r, w')) :
    step w op = some w' := by
  rw [← react_state, hreact]
  rfl

end EspWolfssl.OperationReplies
