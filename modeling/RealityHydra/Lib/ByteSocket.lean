import RealityHydra.Lib.ByteCodec

/-!
# Sequential programs over a byte socket

A socket is the bytes its peer has still to be read and the bytes written to
it; reading past the end is the peer having closed.  A program either returns
or stops with an error, and keeps what it wrote in both cases.  The rules here
say exactly when each operation succeeds, and with which socket.
-/

set_option autoImplicit false

namespace RealityHydra.Lib.ByteSocket

open RealityHydra.Lib.ByteCodec

structure Sock where
  unread : Bytes
  written : Bytes
  deriving DecidableEq, Repr

abbrev SockM (ε : Type) := EStateM ε Sock

section Operations
variable {ε : Type}

def readByte (short : ε) : SockM ε UInt8 := fun sock =>
  match sock.unread with
  | [] => .error short sock
  | byte :: rest => .ok byte { sock with unread := rest }

/-- The next `count` bytes; a shorter stream is drained before the error. -/
def readExact (short : ε) (count : Nat) : SockM ε Bytes := fun sock =>
  if sock.unread.length < count then .error short { sock with unread := [] }
  else .ok (sock.unread.take count) { sock with unread := sock.unread.drop count }

def writeAll (bytes : Bytes) : SockM ε Unit := fun sock =>
  .ok () { sock with written := sock.written ++ bytes }

def fail {α : Type} (error : ε) : SockM ε α := fun sock => .error error sock

end Operations

/-! ## When an operation returns -/

section Rules
variable {ε α β : Type}

theorem bind_ok_iff (action : SockM ε α) (next : α → SockM ε β)
    (before after : Sock) (result : β) :
    (action >>= next) before = .ok result after ↔
      ∃ value middle, action before = .ok value middle ∧
        next value middle = .ok result after := by
  constructor
  · intro success
    cases ran : action before with
    | ok value middle =>
        refine ⟨value, middle, rfl, ?_⟩
        simpa [bind, EStateM.bind, ran] using success
    | error error middle => simp [bind, EStateM.bind, ran] at success
  · rintro ⟨value, middle, ran, success⟩
    simpa [bind, EStateM.bind, ran] using success

theorem bind_of_ok {action : SockM ε α} {next : α → SockM ε β} {before middle : Sock}
    {value : α} (ran : action before = .ok value middle) :
    (action >>= next) before = next value middle := by
  simp [bind, EStateM.bind, ran]

theorem bind_of_error {action : SockM ε α} {next : α → SockM ε β} {before after : Sock}
    {error : ε} (stopped : action before = .error error after) :
    (action >>= next) before = .error error after := by
  simp [bind, EStateM.bind, stopped]

theorem pure_ok_iff (value result : α) (before after : Sock) :
    (pure value : SockM ε α) before = .ok result after ↔
      value = result ∧ before = after := by
  simp [pure, EStateM.pure]

theorem fail_ok_iff (error : ε) (before after : Sock) (result : α) :
    (fail error : SockM ε α) before = .ok result after ↔ False := by
  simp [fail]

theorem writeAll_ok_iff (bytes : Bytes) (before after : Sock) (result : Unit) :
    (writeAll bytes : SockM ε Unit) before = .ok result after ↔
      after.unread = before.unread ∧ after.written = before.written ++ bytes := by
  obtain ⟨unread, written⟩ := after
  simp only [writeAll, EStateM.Result.ok.injEq, true_and, Sock.mk.injEq]
  exact and_congr eq_comm eq_comm

theorem readByte_ok_iff (short : ε) (before after : Sock) (byte : UInt8) :
    readByte short before = .ok byte after ↔
      before.unread = byte :: after.unread ∧ after.written = before.written := by
  obtain ⟨unread, written⟩ := before
  obtain ⟨left, kept⟩ := after
  cases unread with
  | nil => simp [readByte]
  | cons head rest =>
      simp only [readByte, EStateM.Result.ok.injEq, Sock.mk.injEq,
        List.cons.injEq, and_assoc]
      exact and_congr_right fun _ => and_congr_right fun _ => eq_comm

theorem readExact_ok_iff (short : ε) (count : Nat) (before after : Sock)
    (bytes : Bytes) :
    readExact short count before = .ok bytes after ↔
      bytes.length = count ∧ before.unread = bytes ++ after.unread ∧
        after.written = before.written := by
  obtain ⟨unread, written⟩ := before
  obtain ⟨left, kept⟩ := after
  unfold readExact
  split
  · rename_i tooShort
    constructor
    · intro impossible
      contradiction
    · rintro ⟨length, split, _⟩
      dsimp only at split tooShort
      rw [split, List.length_append] at tooShort
      omega
  · rename_i enough
    simp only [EStateM.Result.ok.injEq, Sock.mk.injEq]
    dsimp only at enough
    constructor
    · rintro ⟨taken, dropped, same⟩
      refine ⟨?_, ?_, same.symm⟩
      · rw [← taken, List.length_take]
        omega
      · rw [← taken, ← dropped, List.take_append_drop]
    · rintro ⟨length, split, same⟩
      subst length
      refine ⟨?_, ?_, same.symm⟩
      · rw [split, List.take_left]
      · rw [split, List.drop_left]

/-! ## What a stopped program has written -/

theorem bind_error_iff (action : SockM ε α) (next : α → SockM ε β) (before after : Sock)
    (error : ε) :
    (action >>= next) before = .error error after ↔
      action before = .error error after ∨
        ∃ value middle, action before = .ok value middle ∧
          next value middle = .error error after := by
  cases ran : action before with
  | ok value middle => simp [bind, EStateM.bind, ran]
  | error other middle => simp [bind, EStateM.bind, ran]

theorem fail_error_iff (error other : ε) (before after : Sock) :
    (fail error : SockM ε α) before = .error other after ↔ error = other ∧ before = after := by
  simp [fail]

theorem pure_error_iff (value : α) (error : ε) (before after : Sock) :
    (pure value : SockM ε α) before = .error error after ↔ False := by
  simp [pure, EStateM.pure]

theorem writeAll_error_iff (bytes : Bytes) (error : ε) (before after : Sock) :
    (writeAll bytes : SockM ε Unit) before = .error error after ↔ False := by
  simp [writeAll]

/-- A program that writes nothing, whether it returns or stops. -/
structure Reads (action : SockM ε α) : Prop where
  ok : ∀ before value after, action before = .ok value after → after.written = before.written
  error : ∀ before error after, action before = .error error after →
    after.written = before.written

theorem Reads.bind {action : SockM ε α} {next : α → SockM ε β} (first : Reads action)
    (later : ∀ value, Reads (next value)) : Reads (action >>= next) where
  ok before result after returned := by
    obtain ⟨value, middle, ran, rest⟩ := (bind_ok_iff ..).mp returned
    exact ((later value).ok _ _ _ rest).trans (first.ok _ _ _ ran)
  error before error after stopped := by
    rcases (bind_error_iff ..).mp stopped with early | ⟨value, middle, ran, rest⟩
    · exact first.error _ _ _ early
    · exact ((later value).error _ _ _ rest).trans (first.ok _ _ _ ran)

theorem Reads.pure (value : α) : Reads (pure value : SockM ε α) where
  ok before result after returned := by rw [((pure_ok_iff ..).mp returned).2]
  error before error after stopped := ((pure_error_iff ..).mp stopped).elim

theorem Reads.fail (error : ε) : Reads (fail error : SockM ε α) where
  ok before result after returned := ((fail_ok_iff ..).mp returned).elim
  error before other after stopped := by rw [((fail_error_iff ..).mp stopped).2]

theorem Reads.readByte (short : ε) : Reads (readByte short) where
  ok before byte after returned := ((readByte_ok_iff ..).mp returned).2
  error before error after stopped := by
    unfold ByteSocket.readByte at stopped
    split at stopped
    · cases stopped
      rfl
    · contradiction

theorem Reads.readExact (short : ε) (count : Nat) : Reads (readExact short count) where
  ok before bytes after returned := ((readExact_ok_iff ..).mp returned).2.2
  error before error after stopped := by
    unfold ByteSocket.readExact at stopped
    split at stopped
    · cases stopped
      rfl
    · contradiction

end Rules

end RealityHydra.Lib.ByteSocket
