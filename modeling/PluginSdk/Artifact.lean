import PluginSdk.Validation
import PluginSdk.Sender
import PluginSdk.Lib.Pieces
import PluginSdk.Lib.Program
import Mathlib.Control.Monad.Basic

/-!
# Artifacts and the operations of a context

The checks of an artifact's descriptor and of its source, and the plan of its chunks.  What an action does through its
context is a program over the operations at which it can be suspended or can see the outside: the load of the
cancellation value, the clock, and the operations that are raced against cancellation in a `select!`.
-/

namespace PluginSdk

def artifactIoBufferBytes : Nat := 64 * 1024

/-- What the SDK takes from its platform: the width of `usize`, the type of its buffer size, and the digest of the
`sha2` crate. -/
structure Platform where
  usizeMax : Nat
  buffer_le : artifactIoBufferBytes ≤ usizeMax
  sha256 : List UInt8 → List UInt8

def maximumArtifactFileNameBytes : Nat := 191
def sha256DigestBytes : Nat := 32

def validateDescriptor (descriptor : ArtifactDescriptor) : Except SdkError PluginArtifactId :=
  match descriptor.artifactId.filter fun id => Validation.canonicalUuidV4 id.value with
  | none => .error (.invalidArgument "artifact ID must be a canonical UUID v4")
  | some artifactId =>
    let fileName := descriptor.fileName.toUTF8.toList
    if fileName = [] ∨ fileName.length > maximumArtifactFileNameBytes ∨ descriptor.fileName = "." ∨
        descriptor.fileName = ".." ∨ 0 ∈ fileName ∨ '/' ∈ descriptor.fileName.toList then
      .error (.invalidArgument "artifact file name must be one safe UTF-8 basename of at most 191 bytes")
    else if descriptor.mediaType = "" ∨ descriptor.sha256.length ≠ sha256DigestBytes then
      .error (.invalidArgument "artifact media type and 32-byte SHA-256 are required")
    else .ok artifactId

theorem filter_of_validateDescriptor {descriptor : ArtifactDescriptor} {artifactId : PluginArtifactId}
    (h : validateDescriptor descriptor = .ok artifactId) :
    (descriptor.artifactId.filter fun id => Validation.canonicalUuidV4 id.value) = some artifactId := by
  unfold validateDescriptor at h
  cases hf : descriptor.artifactId.filter fun id => Validation.canonicalUuidV4 id.value with
  | none => simp [hf] at h
  | some id =>
    simp only [hf] at h
    split at h
    · cases h
    · split at h
      · cases h
      · cases h
        rfl

/-- A validated descriptor has the ID that it was validated with. -/
theorem artifactId_of_validateDescriptor {descriptor : ArtifactDescriptor} {artifactId : PluginArtifactId}
    (h : validateDescriptor descriptor = .ok artifactId) : descriptor.artifactId = some artifactId :=
  (Option.filter_eq_some_iff.1 (filter_of_validateDescriptor h)).1

structure ArtifactPlan where
  chunkBytes : Nat
  chunkCount : Nat

def artifactPlan (platform : Platform) (sizeBytes maximumChunkBytes : Nat) : Except SdkError ArtifactPlan :=
  if maximumChunkBytes = 0 then .error (.protocol "host advertised a zero artifact chunk limit")
  else
    let chunkBytes := min (min maximumChunkBytes platform.usizeMax) artifactIoBufferBytes
    let count : Except SdkError Nat :=
      if sizeBytes = 0 then .ok 0
      else
        match checkedAddU64 sizeBytes (chunkBytes - 1) with
        | some sum => .ok (sum / chunkBytes)
        | none => .error (.invalidArgument "artifact chunk count overflowed")
    match count with
    | .error e => .error e
    | .ok count =>
      if count < 2 ^ 32 then .ok { chunkBytes, chunkCount := count }
      else .error (.invalidArgument "artifact has too many chunks")

section Plans

open Pieces

variable {platform : Platform} {sizeBytes maximumChunkBytes : Nat} {plan : ArtifactPlan}

/-- A `usize` holds the length of a chunk, which is that of the buffer at most. -/
theorem min_usizeMax (platform : Platform) (maximumChunkBytes : Nat) :
    min (min maximumChunkBytes platform.usizeMax) artifactIoBufferBytes =
      min maximumChunkBytes artifactIoBufferBytes := by
  have hbuffer := platform.buffer_le
  omega

theorem chunkBytes_pos (hlimit : 0 < maximumChunkBytes) : 0 < min maximumChunkBytes artifactIoBufferBytes := by
  unfold artifactIoBufferBytes
  omega

/-- A plan has as many chunks as there are pieces. -/
theorem artifactPlan_eq_ok (h : artifactPlan platform sizeBytes maximumChunkBytes = .ok plan) :
    0 < maximumChunkBytes ∧ plan.chunkBytes = min maximumChunkBytes artifactIoBufferBytes ∧
      plan.chunkCount = number plan.chunkBytes sizeBytes := by
  unfold artifactPlan at h
  rw [min_usizeMax] at h
  by_cases hzero : maximumChunkBytes = 0
  · rw [if_pos hzero] at h
    cases h
  · rw [if_neg hzero] at h
    have hpos := chunkBytes_pos (Nat.pos_of_ne_zero hzero)
    generalize min maximumChunkBytes artifactIoBufferBytes = chunkBytes at h hpos
    by_cases hsize : sizeBytes = 0
    · simp only [hsize, if_true] at h
      rw [if_pos (by decide)] at h
      cases h
      have hnumber : number chunkBytes 0 = 0 := Nat.div_eq_of_lt (by omega)
      exact ⟨by omega, rfl, by rw [hsize, hnumber]⟩
    · cases hadd : checkedAddU64 sizeBytes (chunkBytes - 1) with
      | none => simp [hsize, hadd] at h
      | some sum =>
        obtain rfl := checkedAddU64_eq_some hadd
        simp only [hsize, hadd, if_false] at h
        split at h
        · cases h
          exact ⟨by omega, rfl, rfl⟩
        · cases h

/-- The number of chunks is a `u32`. -/
theorem chunkCount_lt (h : artifactPlan platform sizeBytes maximumChunkBytes = .ok plan) :
    plan.chunkCount < 2 ^ 32 := by
  unfold artifactPlan at h
  split at h
  · cases h
  · simp only at h
    split at h
    · cases h
    · split at h
      · cases h
        assumption
      · cases h

/-- The chunks of a plan hold the whole artifact. -/
theorem le_of_artifactPlan (h : artifactPlan platform sizeBytes maximumChunkBytes = .ok plan) :
    sizeBytes ≤ plan.chunkCount * plan.chunkBytes := by
  obtain ⟨hlimit, hbytes, hcount⟩ := artifactPlan_eq_ok h
  have hpos : 0 < plan.chunkBytes := by
    rw [hbytes]
    exact chunkBytes_pos hlimit
  by_contra hmore
  rw [hcount] at hmore
  exact Nat.lt_irrefl _ ((lt_number_iff hpos).2 (Nat.lt_of_not_le hmore))

end Plans

/-! ### Programs of a context -/

/-- What a biased `select!` of `cancelled()` and another future yields. -/
inductive Selected (α : Type)
  | cancelled
  | ready (result : α)

inductive ContextOp
  /-- The load of `ensure_active`. -/
  | ensureActive
  /-- The system clock. -/
  | now
  | send (trace : TraceContext) (payload : Payload)
  | request (trace : TraceContext) (payload : Payload)
  | streamPosition
  | read (limit : Nat)
  | seekStart (position : Nat)
  | readExact (length : Nat)

/-- What an operation is answered with; an I/O error is its text. -/
def ContextOp.Reply : ContextOp → Type
  | ensureActive => Bool
  | now => Timestamp
  | send _ _ => Selected (Except SdkError Unit)
  | request _ _ => Selected (Except SdkError Payload)
  | streamPosition | seekStart _ => Selected (Except String Nat)
  | read _ | readExact _ => Selected (Except String (List UInt8))

abbrev ContextProgram (α : Type) : Type := ExceptT SdkError (Program ContextOp ContextOp.Reply) α

namespace ContextProgram

def lift {α : Type} (x : Except SdkError α) : ContextProgram α := ExceptT.mk (.pure x)

def ensureActive : ContextProgram Unit :=
  ExceptT.mk (.op .ensureActive fun (active : Bool) => .pure (if active then .ok () else .error .cancelled))

def now : ContextProgram Timestamp := ExceptT.mk (.op .now fun timestamp => .pure (.ok timestamp))

def selected {α : Type} : Selected (Except SdkError α) → Except SdkError α
  | .cancelled => .error .cancelled
  | .ready result => result

/-- An I/O result, whose error names the operation that failed. -/
def selectedIo {α : Type} (operation : String) : Selected (Except String α) → Except SdkError α
  | .cancelled => .error .cancelled
  | .ready (.ok a) => .ok a
  | .ready (.error source) => .error (.runtime operation source)

def send (trace : TraceContext) (payload : Payload) : ContextProgram Unit :=
  ExceptT.mk (.op (.send trace payload) fun r => .pure (selected r))

def request (trace : TraceContext) (payload : Payload) : ContextProgram Payload :=
  ExceptT.mk (.op (.request trace payload) fun r => .pure (selected r))

def streamPosition (operation : String) : ContextProgram Nat :=
  ExceptT.mk (.op .streamPosition fun r => .pure (selectedIo operation r))

def read (limit : Nat) (operation : String) : ContextProgram (List UInt8) :=
  ExceptT.mk (.op (.read limit) fun r => .pure (selectedIo operation r))

def seekStart (position : Nat) (operation : String) : ContextProgram Nat :=
  ExceptT.mk (.op (.seekStart position) fun r => .pure (selectedIo operation r))

def readExact (length : Nat) (operation : String) : ContextProgram (List UInt8) :=
  ExceptT.mk (.op (.readExact length) fun r => .pure (selectedIo operation r))

end ContextProgram

/-- Reads the source to its end.  Every read but the last yields a byte, so the checked sum overflows before the
bound on the number of reads is reached. -/
def readToEnd : Nat → Nat → List UInt8 → ContextProgram (Nat × List UInt8)
  | 0, _, _ => .lift (.error (.invalidArgument "artifact size overflowed"))
  | reads + 1, size, bytes => do
    let read ← ContextProgram.read artifactIoBufferBytes "read artifact source for validation"
    if read = [] then pure (size, bytes)
    else
      match checkedAddU64 size read.length with
      | none => .lift (.error (.invalidArgument "artifact size overflowed"))
      | some size => readToEnd reads size (bytes ++ read)

def validateSource (platform : Platform) (descriptor : ArtifactDescriptor) : ContextProgram Unit := do
  let start ← ContextProgram.streamPosition "inspect artifact source position"
  let (size, bytes) ← readToEnd (2 ^ 64 + 1) 0 []
  let _ ← ContextProgram.seekStart start "rewind validated artifact source"
  if size ≠ descriptor.sizeBytes ∨ platform.sha256 bytes ≠ descriptor.sha256 then
    .lift (.error (.invalidArgument "artifact size or SHA-256 does not match its source"))
  else pure ()

end PluginSdk
