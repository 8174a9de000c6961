import RealityHydra.HydraServer.Tls
import RealityHydra.Lib.Transition

/-!
# The certificate directory over restarts

A run is starts, each of which may be cut off between any two of its
file-system operations, and deletions between them.  Two files are written one
after the other and both are trusted once they exist, so a start cut off
between the second file's creation and its last byte is what a later start
cannot tell from a finished one.
-/

set_option autoImplicit false

namespace RealityHydra.HydraServer

open RealityHydra.Lib.ByteCodec
open RealityHydra.Lib.Files
open RealityHydra.Lib.Transition
open RealityHydra.Primitives
open TlsMaterial (loadOrGenerate loadOrGenerate_outcome Outcome)

/-- A start; one that is cut off makes its first `cut` operations and returns nothing. -/
structure Launch where
  sans : List String
  selfSigned : List String → Except String CertifiedKey
  cut : Option Nat

inductive StoreAction where
  | start (launch : Launch)
  | deleteCert
  | deleteKey

/-- The directory, with what its run is judged by: every pair generated so far,
the pin returned since a file was last deleted, and whether a start was cut off
with both files there and `key.der` unfinished, no file having been deleted since. -/
structure Store where
  files : CertDir
  generated : List CertifiedKey
  pin : Option (Vector UInt8 32)
  torn : Bool

def Store.empty : Store := ⟨fun _ => none, [], none, false⟩

/-- After `count` operations `key.der` is there and unfinished, or a key of
another pair stands beside some byte of this certificate. -/
def cutBetween (keyThere : Bool) (made : CertifiedKey) (count : Nat) : Bool :=
  (if keyThere then 1 else made.certDer.length + 1) < count ∧
    count < made.certDer.length + made.keyDer.length + 2

section Run

variable (sha256 : Sha256) (dir : String)

def Store.attempt (store : Store) (launch : Launch) : TlsMaterial.Attempt :=
  loadOrGenerate sha256 store.files dir launch.selfSigned launch.sans

/-- The pair a start generates, whether or not it is then cut off. -/
def TlsMaterial.Attempt.made (attempt : TlsMaterial.Attempt) : Option CertifiedKey :=
  match attempt.result with
  | .ok (material, true) => some material.pair
  | _ => none

/-- What an attempt leaves, cut off where the launch says. -/
def Store.settle (store : Store) (launch : Launch) (attempt : TlsMaterial.Attempt) : Store :=
  match launch.cut with
  | some count =>
      { files := applyAll store.files (attempt.ops.take count),
        generated := store.generated ++ attempt.made.toList,
        pin := store.pin,
        torn := store.torn || attempt.made.any fun made =>
          cutBetween (store.files (derPaths dir).2).isSome made count }
  | none =>
      { files := applyAll store.files attempt.ops,
        generated := store.generated ++ attempt.made.toList,
        pin := match attempt.result with
          | .ok (material, _) => some material.pin
          | .error _ => store.pin,
        torn := store.torn }

def Store.start (store : Store) (launch : Launch) : Store :=
  store.settle dir launch (store.attempt sha256 dir launch)

def Store.delete (store : Store) (path : String) : Store :=
  { store with files := applyAll store.files [.remove path], pin := none, torn := false }

def storeStep (store : Store) : StoreAction → Option Store
  | .start launch => some (store.start sha256 dir launch)
  | .deleteCert => some (store.delete (derPaths dir).1)
  | .deleteKey => some (store.delete (derPaths dir).2)

/-- A start that runs to its end returns a pair it has just generated or one
generated before, and the pin that was returned since a file was last deleted. -/
def Sound (store : Store) : StoreAction → Prop
  | .start launch => launch.cut = none → ∀ material fresh,
      (store.attempt sha256 dir launch).result = .ok (material, fresh) →
        ((fresh = true ∧ launch.selfSigned (certNames launch.sans) = .ok material.pair) ∨
          material.pair ∈ store.generated) ∧
        ∀ pin, store.pin = some pin → material.pin = pin
  | _ => True

/-- Starts run to their end only where no torn pair has been left. -/
def Mended (store : Store) : StoreAction → Prop
  | .start launch => launch.cut = none → store.torn = false
  | _ => True

/-- What `rcgen` makes is not empty, and neither begins like a certificate made
before nor has a key that one made before begins with. -/
def Fresh (store : Store) : StoreAction → Prop
  | .start launch => ∀ made, (store.attempt sha256 dir launch).made = some made →
      made.certDer ≠ [] ∧
        ∀ earlier ∈ store.generated,
          ¬ earlier.certDer <+: made.certDer ∧ ¬ made.keyDer <+: earlier.keyDer
  | _ => True

/-! ## Soundness -/

structure Store.Coherent (store : Store) : Prop where
  intact : store.torn = false → ∀ cert key, store.files (derPaths dir).1 = some cert →
    store.files (derPaths dir).2 = some key → cert ≠ [] → ⟨cert, key⟩ ∈ store.generated
  pinned : ∀ pin, store.pin = some pin → ∃ cert key, store.files (derPaths dir).1 = some cert ∧
    store.files (derPaths dir).2 = some key ∧ pin = sha256 cert

variable {sha256 dir} {store : Store} {launch : Launch}

theorem Store.Coherent.empty : Store.empty.Coherent sha256 dir where
  intact _ _ _ certThere := by cases certThere
  pinned _ isPin := by cases isPin

theorem not_missing {files : CertDir} {cert key : Bytes}
    (certThere : files (derPaths dir).1 = some cert)
    (keyThere : files (derPaths dir).2 = some key) :
    ¬ (files (derPaths dir).1 = none ∨ files (derPaths dir).2 = none) := by
  rw [certThere, keyThere]
  intro missing
  rcases missing with absent | absent <;> contradiction

theorem Store.Coherent.unpinned (coherent : store.Coherent sha256 dir)
    (missing : store.files (derPaths dir).1 = none ∨ store.files (derPaths dir).2 = none) :
    store.pin = none := by
  cases pinned : store.pin with
  | none => rfl
  | some pin =>
      obtain ⟨cert, key, certThere, keyThere, -⟩ := coherent.pinned pin pinned
      exact absurd missing (not_missing certThere keyThere)

/-- What a pair's files are once a start that made it has gone `count` operations. -/
theorem files_of_count (dir : String) (files : CertDir) (made : CertifiedKey) (count : Nat) :
    let left := applyAll files
      ((writeFile (derPaths dir).1 made.certDer ++ writeFile (derPaths dir).2 made.keyDer).take count)
    left (derPaths dir).1 = (if count = 0 then files (derPaths dir).1
        else some (made.certDer.take (count - 1))) ∧
      left (derPaths dir).2 = (if count ≤ made.certDer.length + 1 then files (derPaths dir).2
        else some (made.keyDer.take (count - (made.certDer.length + 2)))) :=
  applyAll_writeTwo_take files (derPaths_ne dir) made.certDer made.keyDer count

/-- Both files are there after a cut that is not between them: then no byte of
the certificate is, or all of both is. -/
theorem whole_of_not_cutBetween {files : CertDir} {made : CertifiedKey} {count : Nat}
    {cert key : Bytes}
    (missing : files (derPaths dir).1 = none ∨ files (derPaths dir).2 = none)
    (outside : cutBetween (files (derPaths dir).2).isSome made count = false)
    (certThere : applyAll files ((writeFile (derPaths dir).1 made.certDer ++
      writeFile (derPaths dir).2 made.keyDer).take count) (derPaths dir).1 = some cert)
    (keyThere : applyAll files ((writeFile (derPaths dir).1 made.certDer ++
      writeFile (derPaths dir).2 made.keyDer).take count) (derPaths dir).2 = some key) :
    cert = [] ∨ cert = made.certDer ∧ key = made.keyDer := by
  have left := files_of_count dir files made count
  dsimp only at left
  rw [certThere, keyThere] at left
  obtain ⟨certLeft, keyLeft⟩ := left
  rw [cutBetween, decide_eq_false_iff_not] at outside
  by_cases untouched : count ≤ made.certDer.length + 1
  · -- the key is the old one, so the certificate was missing
    rw [if_pos untouched] at keyLeft
    rw [← keyLeft, Option.isSome_some, if_pos rfl] at outside
    have begun : count ≠ 0 := by
      intro zero
      rw [if_pos zero] at certLeft
      exact absurd missing (not_missing certLeft.symm keyLeft.symm)
    rw [if_neg begun] at certLeft
    have first : count - 1 = 0 := by omega
    rw [first, List.take_zero] at certLeft
    exact Or.inl (Option.some.inj certLeft)
  · rw [if_neg untouched] at keyLeft
    rw [if_neg (by omega)] at certLeft
    have finished : made.certDer.length + made.keyDer.length + 2 ≤ count := by
      split at outside <;> omega
    rw [List.take_of_length_le (by omega)] at certLeft keyLeft
    exact Or.inr ⟨Option.some.inj certLeft, Option.some.inj keyLeft⟩

/-- A start that generates nothing changes no more than the pin. -/
theorem Store.settle_of_idle (dir : String) (store : Store) (launch : Launch)
    (attempt : TlsMaterial.Attempt)
    (noOps : attempt.ops = []) (noneMade : attempt.made = none) :
    ∃ pin, store.settle dir launch attempt = { store with pin := pin } ∧
      (pin = store.pin ∨ ∃ material fresh,
        attempt.result = .ok (material, fresh) ∧ pin = some material.pin) := by
  unfold Store.settle
  rw [noOps, noneMade]
  cases launch.cut with
  | some count =>
      refine ⟨store.pin, ?_, Or.inl rfl⟩
      simp [applyAll]
  | none =>
      cases result : attempt.result with
      | error error =>
          refine ⟨store.pin, ?_, Or.inl rfl⟩
          simp [applyAll]
      | ok returned =>
          refine ⟨some returned.1.pin, ?_, Or.inr ⟨returned.1, returned.2, rfl, rfl⟩⟩
          simp [applyAll]

/-- A start that fails changes nothing. -/
theorem Store.settle_of_error (dir : String) (store : Store) (launch : Launch)
    (error : ServerError) : store.settle dir launch ⟨[], .error error⟩ = store := by
  unfold Store.settle
  cases launch.cut with
  | some count => simp [applyAll, TlsMaterial.Attempt.made]
  | none => simp [applyAll, TlsMaterial.Attempt.made]

theorem Store.Coherent.settle {attempt : TlsMaterial.Attempt}
    (coherent : store.Coherent sha256 dir)
    (outcome : Outcome sha256 store.files dir launch.selfSigned launch.sans attempt) :
    (store.settle dir launch attempt).Coherent sha256 dir := by
  cases outcome with
  | loads cert key certThere keyThere nonEmpty =>
      obtain ⟨pin, settled, which⟩ := store.settle_of_idle dir launch
        ⟨[], .ok (⟨cert, key, sha256 cert⟩, false)⟩ rfl rfl
      rw [settled]
      refine ⟨coherent.intact, ?_⟩
      intro returned isPin
      rcases which with unchanged | ⟨material, fresh, result, isNew⟩
      · exact coherent.pinned returned (unchanged ▸ isPin)
      · cases result
        cases Option.some.inj (isNew.symm.trans isPin)
        exact ⟨cert, key, certThere, keyThere, rfl⟩
  | malformed key certThere keyThere error =>
      rw [Store.settle_of_error]
      exact coherent
  | fails missing error =>
      rw [Store.settle_of_error]
      exact coherent
  | generates made missing signed =>
      have unpinned := coherent.unpinned missing
      have isLast : made ∈ store.generated ++ [made] := by simp
      cases cut : launch.cut with
      | some count =>
          simp only [Store.settle, cut]
          refine ⟨?_, ?_⟩
          · intro untorn cert key certThere keyThere nonEmpty
            have outside := (Bool.or_eq_false_iff.mp untorn).2
            rcases whole_of_not_cutBetween missing outside certThere keyThere with
              empty | ⟨wholeCert, wholeKey⟩
            · exact absurd empty nonEmpty
            · rw [wholeCert, wholeKey]
              exact isLast
          · intro pin isPin
            rw [unpinned] at isPin
            contradiction
      | none =>
          simp only [Store.settle, cut]
          have left := files_of_count dir store.files made
            (made.certDer.length + made.keyDer.length + 2)
          rw [List.take_of_length_le (by simp; omega), if_neg (by omega), if_neg (by omega),
            List.take_of_length_le (by omega), List.take_of_length_le (by omega)] at left
          refine ⟨?_, ?_⟩
          · intro _ cert key certThere keyThere _
            rw [← Option.some.inj (left.1.symm.trans certThere),
              ← Option.some.inj (left.2.symm.trans keyThere)]
            exact isLast
          · intro pin isPin
            exact ⟨made.certDer, made.keyDer, left.1, left.2, (Option.some.inj isPin).symm⟩

theorem Store.Coherent.delete (path : String)
    (isOne : path = (derPaths dir).1 ∨ path = (derPaths dir).2) :
    (store.delete path).Coherent sha256 dir := by
  refine ⟨?_, fun pin isPin => by cases isPin⟩
  intro _ cert key certThere keyThere _
  rcases isOne with isCert | isKey
  · simp [Store.delete, applyAll, FileOp.apply, isCert] at certThere
  · simp [Store.delete, applyAll, FileOp.apply, isKey] at keyThere

theorem Store.Coherent.step {next : Store} {action : StoreAction}
    (coherent : store.Coherent sha256 dir)
    (taken : storeStep sha256 dir store action = some next) : next.Coherent sha256 dir := by
  cases action with
  | start launch =>
      cases taken
      exact coherent.settle (loadOrGenerate_outcome ..)
  | deleteCert =>
      cases taken
      exact Store.Coherent.delete _ (Or.inl rfl)
  | deleteKey =>
      cases taken
      exact Store.Coherent.delete _ (Or.inr rfl)

theorem Store.Coherent.sound (coherent : store.Coherent sha256 dir) {action : StoreAction}
    (mended : Mended store action) : Sound sha256 dir store action := by
  cases action with
  | deleteCert => trivial
  | deleteKey => trivial
  | start launch =>
      intro whole material fresh result
      have outcome := loadOrGenerate_outcome sha256 store.files dir launch.selfSigned launch.sans
      rw [Store.attempt] at result
      generalize loadOrGenerate sha256 store.files dir launch.selfSigned launch.sans = attempt
        at outcome result
      cases outcome with
      | malformed => cases result
      | fails => cases result
      | loads cert key certThere keyThere nonEmpty =>
          cases result
          refine ⟨Or.inr (coherent.intact (mended whole) cert key certThere keyThere nonEmpty), ?_⟩
          intro pin isPin
          obtain ⟨other, _, otherThere, -, isHash⟩ := coherent.pinned pin isPin
          rw [isHash, Option.some.inj (certThere.symm.trans otherThere)]
      | generates made missing signed =>
          cases result
          refine ⟨Or.inl ⟨rfl, signed⟩, ?_⟩
          intro pin isPin
          rw [coherent.unpinned missing] at isPin
          contradiction

/-! ## A torn pair is returned -/

/-- What the directory holds when keys are fresh: the key file begins some
generated key, and a torn pair is none of the generated ones. -/
structure Store.Traced (dir : String) (store : Store) : Prop where
  keys : ∀ key, store.files (derPaths dir).2 = some key →
    ∃ made ∈ store.generated, key <+: made.keyDer
  mixed : store.torn = true → ∃ cert key, store.files (derPaths dir).1 = some cert ∧
    store.files (derPaths dir).2 = some key ∧ cert ≠ [] ∧ ⟨cert, key⟩ ∉ store.generated

theorem Store.Traced.empty : Store.empty.Traced dir where
  keys _ keyThere := by cases keyThere
  mixed torn := by cases torn

theorem key_of_fresh_cert {generated : List CertifiedKey} {made : CertifiedKey} {count : Nat}
    {key : Bytes}
    (fresh : ∀ earlier ∈ generated, ¬ earlier.certDer <+: made.certDer)
    (isIn : ⟨made.certDer.take count, key⟩ ∈ generated ++ [made]) : key = made.keyDer := by
  rcases List.mem_append.mp isIn with isOld | isLast
  · exact absurd (List.take_prefix count made.certDer) (fresh _ isOld)
  · exact congrArg CertifiedKey.keyDer (List.mem_singleton.mp isLast)

/-- A start cut off between the two files leaves a pair that was never generated. -/
theorem mixed_of_cutBetween {made : CertifiedKey} {count : Nat}
    (traced : store.Traced dir) (nonEmpty : made.certDer ≠ [])
    (fresh : ∀ earlier ∈ store.generated,
      ¬ earlier.certDer <+: made.certDer ∧ ¬ made.keyDer <+: earlier.keyDer)
    (between : cutBetween (store.files (derPaths dir).2).isSome made count = true) :
    let left := applyAll store.files ((writeFile (derPaths dir).1 made.certDer ++
      writeFile (derPaths dir).2 made.keyDer).take count)
    ∃ cert key, left (derPaths dir).1 = some cert ∧ left (derPaths dir).2 = some key ∧
      cert ≠ [] ∧ ⟨cert, key⟩ ∉ store.generated ++ [made] := by
  intro left
  obtain ⟨certLeft, keyLeft⟩ := files_of_count dir store.files made count
  rw [cutBetween, decide_eq_true_eq] at between
  have second : 1 < count := by
    have length := List.length_pos_iff.mpr nonEmpty
    split at between <;> omega
  rw [if_neg (by omega)] at certLeft
  have someByte : made.certDer.take (count - 1) ≠ [] := by
    have length := List.length_pos_iff.mpr nonEmpty
    intro nothing
    rw [← List.length_eq_zero_iff, List.length_take] at nothing
    omega
  have certFresh := fun earlier isEarlier => (fresh earlier isEarlier).1
  by_cases untouched : count ≤ made.certDer.length + 1
  · rw [if_pos untouched] at keyLeft
    cases keyThere : store.files (derPaths dir).2 with
    | none =>
        rw [keyThere, Option.isSome_none, if_neg (by decide)] at between
        omega
    | some key =>
        rw [keyThere] at keyLeft
        refine ⟨_, key, certLeft, keyLeft, someByte, ?_⟩
        intro isIn
        obtain ⟨earlier, isEarlier, begins⟩ := traced.keys key keyThere
        rw [key_of_fresh_cert certFresh isIn] at begins
        exact (fresh earlier isEarlier).2 begins
  · rw [if_neg untouched] at keyLeft
    refine ⟨_, _, certLeft, keyLeft, someByte, ?_⟩
    intro isIn
    have whole := congrArg List.length (key_of_fresh_cert certFresh isIn)
    rw [List.length_take] at whole
    omega

theorem Store.Traced.idle {attempt : TlsMaterial.Attempt} (traced : store.Traced dir)
    (noOps : attempt.ops = []) (noneMade : attempt.made = none) :
    (store.settle dir launch attempt).Traced dir := by
  obtain ⟨pin, settled, -⟩ := store.settle_of_idle dir launch attempt noOps noneMade
  rw [settled]
  exact ⟨traced.keys, traced.mixed⟩

theorem Store.Traced.settle {attempt : TlsMaterial.Attempt} (traced : store.Traced dir)
    (outcome : Outcome sha256 store.files dir launch.selfSigned launch.sans attempt)
    (fresh : ∀ made, attempt.made = some made → made.certDer ≠ [] ∧
      ∀ earlier ∈ store.generated,
        ¬ earlier.certDer <+: made.certDer ∧ ¬ made.keyDer <+: earlier.keyDer) :
    (store.settle dir launch attempt).Traced dir := by
  cases outcome with
  | loads => exact traced.idle rfl rfl
  | malformed => exact traced.idle rfl rfl
  | fails => exact traced.idle rfl rfl
  | generates made missing signed =>
      obtain ⟨nonEmpty, fresh⟩ := fresh made rfl
      have untorn : store.torn ≠ true := by
        intro torn
        obtain ⟨cert, key, certThere, keyThere, -⟩ := traced.mixed torn
        exact absurd missing (not_missing certThere keyThere)
      have keysAfter : ∀ count key, applyAll store.files ((writeFile (derPaths dir).1 made.certDer ++
          writeFile (derPaths dir).2 made.keyDer).take count) (derPaths dir).2 = some key →
            ∃ pair ∈ store.generated ++ [made], key <+: pair.keyDer := by
        intro count key keyThere
        have left := (files_of_count dir store.files made count).2
        rw [keyThere] at left
        split at left
        · obtain ⟨earlier, isEarlier, begins⟩ := traced.keys key left.symm
          exact ⟨earlier, List.mem_append_left _ isEarlier, begins⟩
        · rw [Option.some.inj left]
          exact ⟨made, by simp, List.take_prefix _ _⟩
      cases cut : launch.cut with
      | some count =>
          simp only [Store.settle, cut]
          refine ⟨keysAfter count, ?_⟩
          intro torn
          rcases (Bool.or_eq_true _ _).mp torn with already | between
          · exact absurd already untorn
          · exact mixed_of_cutBetween traced nonEmpty fresh between
      | none =>
          simp only [Store.settle, cut]
          refine ⟨?_, fun torn => absurd torn untorn⟩
          intro key keyThere
          refine keysAfter (made.certDer.length + made.keyDer.length + 2) key ?_
          rw [List.take_of_length_le (by simp; omega)]
          exact keyThere

theorem Store.Traced.delete (traced : store.Traced dir) (path : String) :
    (store.delete path).Traced dir := by
  refine ⟨?_, fun torn => by cases torn⟩
  intro key keyThere
  by_cases isKey : path = (derPaths dir).2
  · simp [Store.delete, applyAll, FileOp.apply, isKey] at keyThere
  · refine traced.keys key ?_
    rw [← keyThere]
    exact (Function.update_of_ne (Ne.symm isKey) ..).symm

theorem Store.Traced.step {next : Store} {action : StoreAction} (traced : store.Traced dir)
    (fresh : Fresh sha256 dir store action)
    (taken : storeStep sha256 dir store action = some next) : next.Traced dir := by
  cases action with
  | start launch =>
      cases taken
      exact traced.settle (loadOrGenerate_outcome ..) fresh
  | deleteCert =>
      cases taken
      exact traced.delete _
  | deleteKey =>
      cases taken
      exact traced.delete _

theorem Store.Traced.mended (traced : store.Traced dir) {action : StoreAction}
    (sound : Sound sha256 dir store action) : Mended store action := by
  cases action with
  | deleteCert => trivial
  | deleteKey => trivial
  | start launch =>
      intro whole
      cases torn : store.torn with
      | false => rfl
      | true =>
          obtain ⟨cert, key, certThere, keyThere, nonEmpty, notIn⟩ := traced.mixed torn
          have returned : (store.attempt sha256 dir launch).result =
              .ok (⟨cert, key, sha256 cert⟩, false) := by
            have outcome := loadOrGenerate_outcome sha256 store.files dir launch.selfSigned
              launch.sans
            rw [Store.attempt]
            generalize loadOrGenerate sha256 store.files dir launch.selfSigned launch.sans = attempt
              at outcome
            cases outcome with
            | loads cert' key' certThere' keyThere' _ =>
                cases Option.some.inj (certThere.symm.trans certThere')
                cases Option.some.inj (keyThere.symm.trans keyThere')
                rfl
            | malformed key' certThere' _ error =>
                exact absurd (Option.some.inj (certThere.symm.trans certThere')) nonEmpty
            | fails missing error =>
                exact absurd missing (not_missing certThere keyThere)
            | generates made missing signed =>
                exact absurd missing (not_missing certThere keyThere)
          rcases (sound whole _ _ returned).1 with ⟨isFresh, -⟩ | isIn
          · contradiction
          · exact absurd isIn notIn

/-- From an empty directory, what every finished start returns is sound if and,
where the generated pairs are fresh, only if no start runs to its end on the pair
that one cut off between the two files has left, no file having been deleted since. -/
theorem restarts_sound_iff_mended (sha256 : Sha256) (dir : String) (actions : List StoreAction) :
    (Along (storeStep sha256 dir) Mended Store.empty actions →
      Along (storeStep sha256 dir) (Sound sha256 dir) Store.empty actions) ∧
    (Along (storeStep sha256 dir) (Fresh sha256 dir) Store.empty actions →
      Along (storeStep sha256 dir) (Sound sha256 dir) Store.empty actions →
        Along (storeStep sha256 dir) Mended Store.empty actions) := by
  refine ⟨?_, ?_⟩
  · intro mended
    refine mended.mono (Store.Coherent sha256 dir) ?_ ?_ Store.Coherent.empty
    · intro store action coherent holds
      exact coherent.sound holds
    · intro store action next coherent _ taken
      exact coherent.step taken
  · intro fresh sound
    refine (fresh.and sound).mono (Store.Traced dir) ?_ ?_ Store.Traced.empty
    · intro store action traced holds
      exact traced.mended holds.2
    · intro store action next traced holds taken
      exact traced.step holds.1 taken

end Run

/-! ## A start cut off between the two files -/

def lengthHash : Sha256 := fun bytes => Vector.replicate 32 (UInt8.ofNat bytes.length)

def firstPair : CertifiedKey := ⟨[1, 2], [3, 4]⟩

def secondPair : CertifiedKey := ⟨[5, 6], [7, 8]⟩

def launchOf (made : CertifiedKey) (cut : Option Nat) : StoreAction :=
  .start ⟨[], fun _ => .ok made, cut⟩

/-- Cut off while the certificate is written, started again, the certificate
deleted, and started twice more. -/
def mendedRun : List StoreAction :=
  [launchOf firstPair (some 2), launchOf secondPair none, .deleteCert,
    launchOf ⟨[9, 10], [11, 12]⟩ none, launchOf ⟨[13], [14]⟩ none]

theorem mended_run_sound :
    Along (storeStep lengthHash "") (Sound lengthHash "") Store.empty mendedRun := by
  refine (restarts_sound_iff_mended lengthHash "" mendedRun).1 ?_
  refine ⟨nofun, ?_⟩
  intro cutOff taken
  cases taken
  refine ⟨fun _ => rfl, ?_⟩
  intro generated taken
  cases taken
  refine ⟨trivial, ?_⟩
  intro deleted taken
  cases taken
  refine ⟨fun _ => rfl, ?_⟩
  intro again taken
  cases taken
  refine ⟨fun _ => rfl, ?_⟩
  intro loaded taken
  trivial

def tornRun : List StoreAction := [launchOf firstPair (some 4), launchOf secondPair none]

/-- Cut off right after `key.der` was created: the next start returns the
certificate with an empty key. -/
theorem cut_between_files_returns_torn_pair :
    Along (storeStep lengthHash "") (Fresh lengthHash "") Store.empty tornRun ∧
      ¬ Along (storeStep lengthHash "") (Sound lengthHash "") Store.empty tornRun := by
  refine ⟨⟨?_, ?_⟩, ?_⟩
  · intro made isMade
    cases isMade
    exact ⟨List.cons_ne_nil _ _, fun _ isEarlier => by contradiction⟩
  · intro next taken
    cases taken
    exact ⟨fun _ isMade => by contradiction, fun _ _ => trivial⟩
  · intro sound
    have returned := (sound.2 _ rfl).1 rfl ⟨[1, 2], [], lengthHash [1, 2]⟩ false rfl
    rcases returned.1 with ⟨isFresh, -⟩ | isIn
    · contradiction
    · have isFirst : TlsMaterial.pair ⟨[1, 2], [], lengthHash [1, 2]⟩ = firstPair :=
        List.mem_singleton.mp isIn
      have noKey : ([] : Bytes) = [3, 4] := congrArg CertifiedKey.keyDer isFirst
      contradiction

end RealityHydra.HydraServer
