import RealityHydra.HydraServer.Handle

/-!
# The handler from await to await

`handle` again, now cut at every point where it waits: at its reads, while it
connects to the destination, while it writes its reply and while it forwards
early payload.  Completing what is pending gives the handler cut at its reads.
-/

set_option autoImplicit false

namespace RealityHydra.HydraServer

open RealityHydra.Lib.ByteCodec
open RealityHydra.TunnelProto

inductive AfterReply where
  | forward (leftover : Bytes)
  | fail (error : ServerError)
  deriving DecidableEq, Repr

inductive Await where
  | read (buf : Bytes)
  | connect (dest : String) (leftover : Bytes)
  | reply (replyByte : UInt8) (next : AfterReply)
  | forward (leftover : Bytes)
  | relay
  | done (error : ServerError)
  deriving DecidableEq, Repr

structure Serving where
  await : Await
  written : Bytes
  dialled : List String
  delivered : Bytes
  deriving DecidableEq, Repr

def tryHeader (env : ServerEnv) (now : UInt64) (buf : Bytes) : Await :=
  match parseRequest env.hmac buf env.key now env.maxSkew with
  | .ok parsed => .connect parsed.target.display (buf.drop parsed.consumed)
  | .error (.truncated _) =>
      if maxHeader ≤ buf.length then .done ⟨"header exceeded maximum length"⟩
      else .read buf
  | .error rejected =>
      .reply Reply.authFail (.fail ⟨"rejected header: " ++ rejected.message⟩)

def Serving.start (env : ServerEnv) (now : UInt64) : Serving where
  await := tryHeader env now []
  written := []
  dialled := []
  delivered := []

def Serving.onRead (env : ServerEnv) (now : UInt64) (chunk : Bytes)
    (serving : Serving) : Serving :=
  match serving.await with
  | .read buf => { serving with await := tryHeader env now (buf ++ chunk) }
  | .relay => { serving with delivered := serving.delivered ++ chunk }
  | _ => serving

/-- The await that waits for no read completes. -/
def Serving.resume (env : ServerEnv) (serving : Serving) : Option Serving :=
  match serving.await with
  | .connect dest leftover =>
      let dialled := serving.dialled ++ [dest]
      match env.dial dest with
      | .ok _ => some { serving with await := .reply Reply.ok (.forward leftover), dialled }
      | .error text =>
          let error : ServerError := ⟨"dial " ++ dest ++ " failed: " ++ text⟩
          some { serving with await := .reply Reply.dialFail (.fail error), dialled }
  | .reply replyByte next =>
      let written := serving.written ++ [replyByte]
      match next with
      | .forward [] => some { serving with await := .relay, written }
      | .forward leftover => some { serving with await := .forward leftover, written }
      | .fail error => some { serving with await := .done error, written }
  | .forward leftover =>
      some { serving with await := .relay, delivered := serving.delivered ++ leftover }
  | _ => none

/-! ## Completing what is pending -/

def Serving.afterReply (serving : Serving) (replyByte : UInt8) : AfterReply → Conn
  | .forward leftover =>
      { phase := .relaying, written := serving.written ++ [replyByte],
        dialled := serving.dialled, delivered := serving.delivered ++ leftover }
  | .fail error =>
      { phase := .failed error, written := serving.written ++ [replyByte],
        dialled := serving.dialled, delivered := serving.delivered }

/-- The connection once no await but a read is left. -/
def Serving.settle (env : ServerEnv) (serving : Serving) : Conn :=
  match serving.await with
  | .read buf => ⟨.reading buf, serving.written, serving.dialled, serving.delivered⟩
  | .connect dest leftover =>
      let connected := { serving with dialled := serving.dialled ++ [dest] }
      match env.dial dest with
      | .ok _ => connected.afterReply Reply.ok (.forward leftover)
      | .error text =>
          connected.afterReply Reply.dialFail
            (.fail ⟨"dial " ++ dest ++ " failed: " ++ text⟩)
  | .reply replyByte next => serving.afterReply replyByte next
  | .forward leftover =>
      ⟨.relaying, serving.written, serving.dialled, serving.delivered ++ leftover⟩
  | .relay => ⟨.relaying, serving.written, serving.dialled, serving.delivered⟩
  | .done error => ⟨.failed error, serving.written, serving.dialled, serving.delivered⟩

/-- What completing an await does. -/
inductive Resumes (env : ServerEnv) : Serving → Serving → Prop where
  | dialled {dest leftover written dialled delivered}
      (dial : env.dial dest = .ok ()) :
      Resumes env ⟨.connect dest leftover, written, dialled, delivered⟩
        ⟨.reply Reply.ok (.forward leftover), written, dialled ++ [dest], delivered⟩
  | refused {dest leftover written dialled delivered text}
      (dial : env.dial dest = .error text) :
      Resumes env ⟨.connect dest leftover, written, dialled, delivered⟩
        ⟨.reply Reply.dialFail (.fail ⟨"dial " ++ dest ++ " failed: " ++ text⟩), written,
          dialled ++ [dest], delivered⟩
  | relays {replyByte written dialled delivered} :
      Resumes env ⟨.reply replyByte (.forward []), written, dialled, delivered⟩
        ⟨.relay, written ++ [replyByte], dialled, delivered⟩
  | forwards {replyByte leftover written dialled delivered} (early : leftover ≠ []) :
      Resumes env ⟨.reply replyByte (.forward leftover), written, dialled, delivered⟩
        ⟨.forward leftover, written ++ [replyByte], dialled, delivered⟩
  | fails {replyByte error written dialled delivered} :
      Resumes env ⟨.reply replyByte (.fail error), written, dialled, delivered⟩
        ⟨.done error, written ++ [replyByte], dialled, delivered⟩
  | forwarded {leftover written dialled delivered} :
      Resumes env ⟨.forward leftover, written, dialled, delivered⟩
        ⟨.relay, written, dialled, delivered ++ leftover⟩

theorem Serving.resumes {env : ServerEnv} {before after : Serving}
    (resumed : before.resume env = some after) : Resumes env before after := by
  obtain ⟨await, written, dialled, delivered⟩ := before
  cases await with
  | read buf => contradiction
  | connect dest leftover =>
      simp only [Serving.resume] at resumed
      split at resumed
      · rename_i dial
        cases Option.some.inj resumed
        exact .dialled dial
      · rename_i dial
        cases Option.some.inj resumed
        exact .refused dial
  | reply replyByte next =>
      simp only [Serving.resume] at resumed
      split at resumed
      · cases Option.some.inj resumed
        exact .relays
      · rename_i leftover early
        cases Option.some.inj resumed
        exact .forwards early
      · cases Option.some.inj resumed
        exact .fails
  | forward leftover =>
      cases Option.some.inj resumed
      exact .forwarded
  | relay => contradiction
  | done error => contradiction

theorem Serving.settle_resume (env : ServerEnv) {before after : Serving}
    (resumed : before.resume env = some after) : after.settle env = before.settle env := by
  cases Serving.resumes resumed with
  | dialled dial =>
      simp only [Serving.settle, dial]
      rfl
  | refused dial =>
      simp only [Serving.settle, dial]
      rfl
  | relays => simp [Serving.settle, Serving.afterReply]
  | forwards => simp [Serving.settle, Serving.afterReply]
  | fails => simp [Serving.settle, Serving.afterReply]
  | forwarded => rfl

theorem settle_tryHeader (env : ServerEnv) (now : UInt64) (buf : Bytes) :
    Serving.settle env ⟨tryHeader env now buf, [], [], []⟩ = attempt env now buf := by
  unfold tryHeader attempt
  cases answer : parseRequest env.hmac buf env.key now env.maxSkew with
  | ok parsed =>
      cases dial : env.dial parsed.target.display with
      | ok _ => simp [Serving.settle, Serving.afterReply, dial]
      | error text => simp [Serving.settle, Serving.afterReply, dial]
  | error rejected =>
      cases rejected with
      | truncated needed =>
          dsimp only
          split <;> rfl
      | _ => rfl

/-- A handler suspended in a read settles as the handler cut at its reads. -/
theorem Serving.settle_onRead (env : ServerEnv) (now : UInt64) (chunk : Bytes)
    (serving : Serving)
    (undecided : ∀ buf, serving.await = .read buf →
      serving.written = [] ∧ serving.dialled = [] ∧ serving.delivered = [])
    (reading : (∃ buf, serving.await = .read buf) ∨ serving.await = .relay) :
    (serving.onRead env now chunk).settle env =
      HydraServer.onRead env now chunk (serving.settle env) := by
  obtain ⟨await, written, dialled, delivered⟩ := serving
  rcases reading with waiting | relaying
  · obtain ⟨buf, waiting⟩ := waiting
    obtain ⟨noReply, noDial, nothing⟩ := undecided buf waiting
    cases waiting
    cases noReply
    cases noDial
    cases nothing
    exact settle_tryHeader env now (buf ++ chunk)
  · cases relaying
    rfl

end RealityHydra.HydraServer
