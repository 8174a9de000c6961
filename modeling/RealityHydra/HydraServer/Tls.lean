import RealityHydra.HydraServer.Handle
import RealityHydra.Lib.Files

/-!
# The exit node's TLS identity

`load_or_generate` is given as its file-system operations in the order it makes
them, and the result it then returns.  What `rcgen` makes and SHA-256 are
parameters; `create_dir_all` does nothing to a directory that is there.
-/

set_option autoImplicit false

namespace RealityHydra.HydraServer

open RealityHydra.Lib.ByteCodec
open RealityHydra.Lib.Files
open RealityHydra.Primitives

structure CertifiedKey where
  certDer : Bytes
  keyDer : Bytes
  deriving DecidableEq, Repr

structure TlsMaterial where
  certDer : Bytes
  keyDer : Bytes
  pin : Vector UInt8 32
  deriving DecidableEq, Repr

abbrev CertDir := Directory String UInt8

/-- `Path::join` with a relative name. -/
def joinPath (dir name : String) : String :=
  if dir = "" ∨ dir.toList.getLast? = some '/' then dir ++ name else dir ++ "/" ++ name

def derPaths (dir : String) : String × String :=
  (joinPath dir "cert.der", joinPath dir "key.der")

def readFile (files : CertDir) (path : String) : Except ServerError Bytes :=
  match files path with
  | some bytes => .ok bytes
  | none => .error ⟨"reading certificate material from " ++ path ++
      ": No such file or directory (os error 2)"⟩

def certNames (sans : List String) : List String :=
  if sans.isEmpty then ["hydra.local"] else sans

namespace TlsMaterial

variable (sha256 : Sha256)

def generate (selfSigned : List String → Except String CertifiedKey) (sans : List String) :
    Except ServerError TlsMaterial :=
  match selfSigned (certNames sans) with
  | .ok key => .ok ⟨key.certDer, key.keyDer, sha256 key.certDer⟩
  | .error reason => .error ⟨"generating self-signed certificate failed: " ++ reason⟩

def loadDer (files : CertDir) (certPath keyPath : String) : Except ServerError TlsMaterial := do
  let certDer ← readFile files certPath
  let keyDer ← readFile files keyPath
  if certDer.isEmpty then
    .error ⟨"certificate material in " ++ certPath ++ " is malformed: empty certificate file"⟩
  else .ok ⟨certDer, keyDer, sha256 certDer⟩

def persist (material : TlsMaterial) (dir : String) : List (FileOp String UInt8) :=
  let (certPath, keyPath) := derPaths dir
  writeFile certPath material.certDer ++ writeFile keyPath material.keyDer

/-- What a start does to the directory, and what it returns if it is not cut off. -/
structure Attempt where
  ops : List (FileOp String UInt8)
  result : Except ServerError (TlsMaterial × Bool)
  deriving DecidableEq

def loadOrGenerate (files : CertDir) (dir : String)
    (selfSigned : List String → Except String CertifiedKey) (sans : List String) : Attempt :=
  let (certPath, keyPath) := derPaths dir
  if (files certPath).isSome ∧ (files keyPath).isSome then
    { ops := [], result := (loadDer sha256 files certPath keyPath).map fun material =>
        (material, false) }
  else
    match generate sha256 selfSigned sans with
    | .ok material => { ops := material.persist dir, result := .ok (material, true) }
    | .error error => { ops := [], result := .error error }

def pair (material : TlsMaterial) : CertifiedKey := ⟨material.certDer, material.keyDer⟩

/-- The four things a start can find. -/
inductive Outcome (files : CertDir) (dir : String)
    (selfSigned : List String → Except String CertifiedKey) (sans : List String) :
    Attempt → Prop where
  | loads (cert key : Bytes) (certThere : files (derPaths dir).1 = some cert)
      (keyThere : files (derPaths dir).2 = some key) (nonEmpty : cert ≠ []) :
      Outcome files dir selfSigned sans
        { ops := [], result := .ok (⟨cert, key, sha256 cert⟩, false) }
  | malformed (key : Bytes) (certThere : files (derPaths dir).1 = some [])
      (keyThere : files (derPaths dir).2 = some key) (error : ServerError) :
      Outcome files dir selfSigned sans { ops := [], result := .error error }
  | fails (missing : files (derPaths dir).1 = none ∨ files (derPaths dir).2 = none)
      (error : ServerError) :
      Outcome files dir selfSigned sans { ops := [], result := .error error }
  | generates (made : CertifiedKey)
      (missing : files (derPaths dir).1 = none ∨ files (derPaths dir).2 = none)
      (signed : selfSigned (certNames sans) = .ok made) :
      Outcome files dir selfSigned sans
        { ops := writeFile (derPaths dir).1 made.certDer ++
            writeFile (derPaths dir).2 made.keyDer,
          result := .ok (⟨made.certDer, made.keyDer, sha256 made.certDer⟩, true) }

theorem loadOrGenerate_outcome (files : CertDir) (dir : String)
    (selfSigned : List String → Except String CertifiedKey) (sans : List String) :
    Outcome sha256 files dir selfSigned sans
      (loadOrGenerate sha256 files dir selfSigned sans) := by
  unfold loadOrGenerate
  dsimp only
  cases certThere : files (derPaths dir).1 with
  | none =>
      rw [if_neg (by simp)]
      cases signed : selfSigned (certNames sans) with
      | error reason =>
          rw [generate, signed]
          exact Outcome.fails (Or.inl certThere) _
      | ok made =>
          rw [generate, signed]
          exact Outcome.generates made (Or.inl certThere) signed
  | some cert =>
      cases keyThere : files (derPaths dir).2 with
      | none =>
          rw [if_neg (by simp)]
          cases signed : selfSigned (certNames sans) with
          | error reason =>
              rw [generate, signed]
              exact Outcome.fails (Or.inr keyThere) _
          | ok made =>
              rw [generate, signed]
              exact Outcome.generates made (Or.inr keyThere) signed
      | some key =>
          rw [if_pos (by simp), loadDer, readFile, certThere, readFile, keyThere]
          cases cert with
          | nil => exact Outcome.malformed key certThere keyThere _
          | cons byte rest =>
              exact Outcome.loads (byte :: rest) key certThere keyThere (List.cons_ne_nil _ _)

end TlsMaterial

theorem derPaths_ne (dir : String) : (derPaths dir).1 ≠ (derPaths dir).2 := by
  unfold derPaths joinPath
  intro same
  split at same
  · exact absurd (String.append_right_inj dir |>.mp same) (by decide)
  · exact absurd (String.append_right_inj (dir ++ "/") |>.mp same) (by decide)

end RealityHydra.HydraServer
