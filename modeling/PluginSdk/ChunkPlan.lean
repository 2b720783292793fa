import PluginSdk.Host
import Mathlib

/-!
# The plan of the chunks at the integer limits

The plan of an artifact and the counter of the loop that follows it, once more on machine words, whose operations wrap
and whose conversions may panic (`artifactPlanWords`, `sendChunksWords`).  For all sizes and limits they do what the
model does with natural numbers; the plan exists unless the limit is zero or the number of chunks is not a `u32`, and
the loop then counts the whole size down (`artifactPlan_exact`).
-/

namespace PluginSdk

open Pieces

/-! ### On machine words -/

/-- `checked_add` on machine words: a sum that is less than a summand has wrapped. -/
def checkedAddWord (a b : UInt64) : Option UInt64 := if a + b < a then none else some (a + b)

/-- `artifact_plan` on machine words. -/
def artifactPlanWords (platform : Platform) (sizeBytes maximumChunkBytes : UInt64) : Except SdkError ArtifactPlan :=
  if maximumChunkBytes = 0 then .error (.protocol "host advertised a zero artifact chunk limit")
  else
    let chunkBytes := min (min maximumChunkBytes.toNat platform.usizeMax) artifactIoBufferBytes
    let count : Except SdkError UInt64 :=
      if sizeBytes = 0 then .ok 0
      else
        match checkedAddWord sizeBytes (UInt64.ofNat chunkBytes - 1) with
        | some sum => .ok (sum / UInt64.ofNat chunkBytes)
        | none => .error (.invalidArgument "artifact chunk count overflowed")
    match count with
    | .error e => .error e
    | .ok count =>
      if count.toNat < 2 ^ 32 then .ok { chunkBytes, chunkCount := count.toNat }
      else .error (.invalidArgument "artifact has too many chunks")

/-- The length that an iteration of the loop takes from its counter, and what it leaves; the conversion of the length
to `usize` may panic. -/
def takeChunk (platform : Platform) (chunkBytes : Nat) (remaining : UInt64) : Option (Nat × UInt64) :=
  let length := (min remaining (UInt64.ofNat chunkBytes)).toNat
  if length ≤ platform.usizeMax then some (length, remaining - UInt64.ofNat length) else none

namespace ActionContext

/-- The iteration of the loop that sends the chunk `index`. -/
def sendChunk (context : ActionContext) (artifactId : PluginArtifactId) (index length : Nat) :
    ContextProgram Unit := do
  .ensureActive
  let data ← .readExact length "read validated artifact source"
  .send context.trace (.artifactChunk ⟨some artifactId, index, data⟩)

/-- The loop with its counters on machine words; there is none if one of its conversions panics. -/
def sendChunksWords (platform : Platform) (context : ActionContext) (artifactId : PluginArtifactId)
    (chunkBytes : Nat) : Nat → UInt32 → UInt64 → Option (ContextProgram Unit)
  | 0, _, _ => some (pure ())
  | chunks + 1, index, remaining => do
    let (length, rest) ← takeChunk platform chunkBytes remaining
    let next ← sendChunksWords platform context artifactId chunkBytes chunks (index + 1) rest
    some (context.sendChunk artifactId index.toNat length >>= fun _ => next)

end ActionContext

private theorem ActionContext.sendChunks_succ {context : ActionContext} {artifactId : PluginArtifactId}
    {chunkBytes chunks index remaining : Nat} :
    context.sendChunks artifactId chunkBytes (chunks + 1) index remaining =
      context.sendChunk artifactId index (min remaining chunkBytes) >>= fun _ =>
        context.sendChunks artifactId chunkBytes chunks (index + 1) (remaining - min remaining chunkBytes) := by
  unfold sendChunk
  simp only [bind_assoc]
  rfl

/-! ### Nothing wraps -/

section Words

variable {platform : Platform} {sizeBytes maximumChunkBytes : UInt64}

private theorem checkedAddWord_eq (a b : UInt64) :
    checkedAddWord a b = (checkedAddU64 a.toNat b.toNat).map UInt64.ofNat := by
  have ha := a.toNat_lt
  have hb := b.toNat_lt
  unfold checkedAddWord checkedAddU64
  by_cases hsum : a.toNat + b.toNat < 2 ^ 64
  · have hfits : ¬ a + b < a := by
      rw [UInt64.lt_iff_toNat_lt, UInt64.toNat_add, Nat.mod_eq_of_lt hsum]
      omega
    rw [if_neg hfits, if_pos hsum, Option.map_some, UInt64.ofNat_add, UInt64.ofNat_toNat, UInt64.ofNat_toNat]
  · have hwraps : a + b < a := by
      rw [UInt64.lt_iff_toNat_lt, UInt64.toNat_add]
      omega
    rw [if_pos hwraps, if_neg hsum, Option.map_none]

private theorem toNat_min (a b : UInt64) : (min a b).toNat = min a.toNat b.toNat := by
  change (if a ≤ b then a else b).toNat = _
  by_cases hab : a ≤ b
  · rw [if_pos hab, Nat.min_eq_left (UInt64.le_iff_toNat_le.1 hab)]
  · rw [if_neg hab, Nat.min_eq_right (le_of_not_ge fun h => hab (UInt64.le_iff_toNat_le.2 h))]

private theorem toNat_ofNat_chunkBytes (maximumChunkBytes : Nat) :
    (UInt64.ofNat (min maximumChunkBytes artifactIoBufferBytes)).toNat =
      min maximumChunkBytes artifactIoBufferBytes := by
  rw [UInt64.toNat_ofNat', Nat.mod_eq_of_lt]
  unfold artifactIoBufferBytes
  omega

private theorem artifactPlanWords_eq (platform : Platform) (sizeBytes maximumChunkBytes : UInt64) :
    artifactPlanWords platform sizeBytes maximumChunkBytes =
      artifactPlan platform sizeBytes.toNat maximumChunkBytes.toNat := by
  unfold artifactPlanWords artifactPlan
  by_cases hzero : maximumChunkBytes = 0
  · rw [if_pos hzero, if_pos (by rw [hzero]; rfl)]
  · have hlimit : maximumChunkBytes.toNat ≠ 0 := fun h => hzero (UInt64.toNat_inj.1 h)
    rw [if_neg hzero, if_neg hlimit, min_usizeMax]
    have hpos := chunkBytes_pos (Nat.pos_of_ne_zero hlimit)
    have hbytes := toNat_ofNat_chunkBytes maximumChunkBytes.toNat
    generalize min maximumChunkBytes.toNat artifactIoBufferBytes = chunkBytes at hpos hbytes
    by_cases hsize : sizeBytes = 0
    · rw [hsize]
      rfl
    · have hsize' : sizeBytes.toNat ≠ 0 := fun h => hsize (UInt64.toNat_inj.1 h)
      have hsub : (UInt64.ofNat chunkBytes - 1).toNat = chunkBytes - 1 := by
        rw [UInt64.toNat_sub_of_le _ _ (by rw [UInt64.le_iff_toNat_le, hbytes]; exact hpos), hbytes]
        rfl
      simp only [if_neg hsize, if_neg hsize', checkedAddWord_eq, hsub]
      cases hadd : checkedAddU64 sizeBytes.toNat (chunkBytes - 1) with
      | none => rfl
      | some sum =>
        have hsum := checkedAddU64_lt hadd
        have hdiv : (UInt64.ofNat sum / UInt64.ofNat chunkBytes).toNat = sum / chunkBytes := by
          rw [UInt64.toNat_div, UInt64.toNat_ofNat', Nat.mod_eq_of_lt hsum, hbytes]
        simp only [Option.map_some, hdiv]

/-- The conversion to `usize` does not panic, and the counter does not fall below zero. -/
private theorem takeChunk_eq {chunkBytes remaining : Nat} (hbytes : chunkBytes ≤ artifactIoBufferBytes)
    (hremaining : remaining < 2 ^ 64) :
    takeChunk platform chunkBytes (UInt64.ofNat remaining) =
      some (min remaining chunkBytes, UInt64.ofNat (remaining - min remaining chunkBytes)) := by
  have hbuffer := platform.buffer_le
  have hbytes' : chunkBytes < 2 ^ 64 := by
    unfold artifactIoBufferBytes at hbytes
    omega
  have hlength : (min (UInt64.ofNat remaining) (UInt64.ofNat chunkBytes)).toNat = min remaining chunkBytes := by
    rw [toNat_min, UInt64.toNat_ofNat', UInt64.toNat_ofNat', Nat.mod_eq_of_lt hremaining, Nat.mod_eq_of_lt hbytes']
  unfold takeChunk
  simp only [hlength]
  rw [if_pos (by omega), UInt64.ofNat_sub (Nat.min_le_left _ _)]

private theorem ActionContext.sendChunksWords_eq {context : ActionContext} {artifactId : PluginArtifactId}
    {chunkBytes chunks index remaining : Nat} (hbytes : chunkBytes ≤ artifactIoBufferBytes)
    (hindex : index + chunks < 2 ^ 32) (hremaining : remaining < 2 ^ 64) :
    context.sendChunksWords platform artifactId chunkBytes chunks (UInt32.ofNat index) (UInt64.ofNat remaining) =
      some (context.sendChunks artifactId chunkBytes chunks index remaining) := by
  induction chunks generalizing index remaining with
  | zero => rfl
  | succ chunks ih =>
    have hnext : UInt32.ofNat index + 1 = UInt32.ofNat (index + 1) := by
      rw [UInt32.ofNat_add]
      rfl
    have hat : (UInt32.ofNat index).toNat = index := by
      rw [UInt32.toNat_ofNat', Nat.mod_eq_of_lt]
      omega
    unfold sendChunksWords
    rw [takeChunk_eq hbytes hremaining, hnext, hat]
    simp only [Option.bind_eq_bind, Option.bind_some]
    rw [ih (by omega) (by omega)]
    simp only [Option.bind_some]
    rw [sendChunks_succ]

end Words

/-! ### The plan -/

section Plans

variable {platform : Platform} {sizeBytes maximumChunkBytes chunkBytes : Nat}

/-- The number of pieces is the quotient of the lengths, rounded up. -/
theorem number_eq_ceil (hpos : 0 < chunkBytes) (sizeBytes : Nat) :
    number chunkBytes sizeBytes = ⌈(sizeBytes : ℚ) / chunkBytes⌉₊ := by
  apply eq_of_forall_lt_iff
  intro i
  have hcast : (0 : ℚ) < chunkBytes := Nat.cast_pos.2 hpos
  rw [lt_number_iff hpos, Nat.lt_ceil, lt_div_iff₀ hcast, ← Nat.cast_mul, Nat.cast_lt]

/-- The addition that rounds the quotient up is in range if the number of chunks is. -/
private theorem add_lt_of_number_lt (hpos : 0 < chunkBytes) (hbytes : chunkBytes ≤ artifactIoBufferBytes)
    (hnumber : number chunkBytes sizeBytes < 2 ^ 32) : sizeBytes + (chunkBytes - 1) < 2 ^ 64 := by
  unfold artifactIoBufferBytes at hbytes
  by_contra hlarge
  have hmany : 2 ^ 32 ≤ number chunkBytes sizeBytes := by
    unfold number
    rw [Nat.le_div_iff_mul_le hpos]
    omega
  omega

private theorem artifactPlan_eq (hlimit : 0 < maximumChunkBytes)
    (hnumber : number (min maximumChunkBytes artifactIoBufferBytes) sizeBytes < 2 ^ 32) :
    artifactPlan platform sizeBytes maximumChunkBytes =
      .ok ⟨min maximumChunkBytes artifactIoBufferBytes,
        number (min maximumChunkBytes artifactIoBufferBytes) sizeBytes⟩ := by
  unfold artifactPlan
  rw [if_neg hlimit.ne', min_usizeMax]
  have hpos := chunkBytes_pos hlimit
  have hbuffer := Nat.min_le_right maximumChunkBytes artifactIoBufferBytes
  generalize min maximumChunkBytes artifactIoBufferBytes = chunkBytes at hpos hbuffer hnumber
  by_cases hsize : sizeBytes = 0
  · have hzero : number chunkBytes 0 = 0 := Nat.div_eq_of_lt (by omega)
    simp [hsize, hzero]
  · have hadd : checkedAddU64 sizeBytes (chunkBytes - 1) = some (sizeBytes + (chunkBytes - 1)) :=
      if_pos (add_lt_of_number_lt hpos hbuffer hnumber)
    simp only [if_neg hsize, hadd]
    exact if_pos hnumber

private theorem artifactPlan_fails_iff :
    (∃ e, artifactPlan platform sizeBytes maximumChunkBytes = .error e) ↔
      maximumChunkBytes = 0 ∨ 2 ^ 32 - 1 < number (min maximumChunkBytes artifactIoBufferBytes) sizeBytes := by
  constructor
  · rintro ⟨e, he⟩
    by_contra hnot
    obtain ⟨hlimit, hnumber⟩ := not_or.1 hnot
    rw [artifactPlan_eq (Nat.pos_of_ne_zero hlimit) (by omega)] at he
    cases he
  · intro h
    cases hplan : artifactPlan platform sizeBytes maximumChunkBytes with
    | error e => exact ⟨e, rfl⟩
    | ok plan =>
      obtain ⟨hlimit, hbytes, hcount⟩ := artifactPlan_eq_ok hplan
      have hfits := chunkCount_lt hplan
      rw [hcount, hbytes] at hfits
      omega

end Plans

/-! ### The loop -/

section Loop

variable {platform : Platform} {context : ActionContext} {artifactId : PluginArtifactId}

/-- When the loop has sent `i` chunks, its counter holds what they leave of the size. -/
private theorem ActionContext.sendChunks_unrolled {chunkBytes chunks size i : Nat} (hi : i ≤ chunks) :
    context.sendChunks artifactId chunkBytes chunks 0 size = (do
      forM (List.range i) fun j => context.sendChunk artifactId j (min (size - j * chunkBytes) chunkBytes)
      context.sendChunks artifactId chunkBytes (chunks - i) i (size - i * chunkBytes)) := by
  induction i with
  | zero => simp
  | succ i ih =>
    have hleft : chunks - i = chunks - (i + 1) + 1 := by omega
    have hrest : size - i * chunkBytes - min (size - i * chunkBytes) chunkBytes = size - (i + 1) * chunkBytes := by
      rw [Nat.succ_mul]
      omega
    rw [ih (by omega), hleft, sendChunks_succ, hrest, List.range_succ, List.forM_append, bind_assoc, List.forM_cons,
      List.forM_nil, bind_pure_unit]

/-- The loop counts the size down under its plan. -/
structure CountsDown (platform : Platform) (context : ActionContext) (artifactId : PluginArtifactId)
    (plan : ArtifactPlan) (sizeBytes : UInt64) : Prop where
  words : context.sendChunksWords platform artifactId plan.chunkBytes plan.chunkCount 0 sizeBytes =
    some (context.sendChunks artifactId plan.chunkBytes plan.chunkCount 0 sizeBytes.toNat)
  counter : ∀ i, i ≤ plan.chunkCount →
    context.sendChunks artifactId plan.chunkBytes plan.chunkCount 0 sizeBytes.toNat = (do
      forM (List.range i) fun j =>
        context.sendChunk artifactId j (min (sizeBytes.toNat - j * plan.chunkBytes) plan.chunkBytes)
      context.sendChunks artifactId plan.chunkBytes (plan.chunkCount - i) i (sizeBytes.toNat - i * plan.chunkBytes))
  remaining : ∀ i, i < plan.chunkCount → 0 < sizeBytes.toNat - i * plan.chunkBytes
  takes : ∀ i, i < plan.chunkCount →
    takeChunk platform plan.chunkBytes (UInt64.ofNat (sizeBytes.toNat - i * plan.chunkBytes)) =
      some (min (sizeBytes.toNat - i * plan.chunkBytes) plan.chunkBytes,
        UInt64.ofNat (sizeBytes.toNat - (i + 1) * plan.chunkBytes))
  fits : ∀ i, i < plan.chunkCount → min (sizeBytes.toNat - i * plan.chunkBytes) plan.chunkBytes ≤ platform.usizeMax
  finished : sizeBytes.toNat - plan.chunkCount * plan.chunkBytes = 0

private theorem countsDown {plan : ArtifactPlan} {sizeBytes limit : UInt64}
    (h : artifactPlan platform sizeBytes.toNat limit.toNat = .ok plan) :
    CountsDown platform context artifactId plan sizeBytes := by
  obtain ⟨hlimit, hbytes, hcount⟩ := artifactPlan_eq_ok h
  have hsize := sizeBytes.toNat_lt
  have hbuffer : plan.chunkBytes ≤ artifactIoBufferBytes := by
    rw [hbytes]
    exact Nat.min_le_right _ _
  have hpos : 0 < plan.chunkBytes := by
    rw [hbytes]
    exact chunkBytes_pos hlimit
  constructor
  case words =>
    have hfits := chunkCount_lt h
    have hwords :=
      @ActionContext.sendChunksWords_eq platform context artifactId _ plan.chunkCount 0 _ hbuffer (by omega) hsize
    rwa [UInt64.ofNat_toNat] at hwords
  case counter => exact fun i hi => ActionContext.sendChunks_unrolled hi
  case remaining =>
    intro i hi
    rw [hcount, lt_number_iff hpos] at hi
    omega
  case takes =>
    intro i hi
    rw [takeChunk_eq hbuffer (by omega), Nat.succ_mul]
    congr 3
    omega
  case fits =>
    intro i hi
    have hplatform := platform.buffer_le
    omega
  case finished => exact Nat.sub_eq_zero_of_le (le_of_artifactPlan h)

end Loop

/-- The plan fails if and only if the limit is zero or there are too many chunks, and is exact otherwise; on machine
words nothing wraps, nor does a conversion panic.  The loop then counts the size down to zero. -/
theorem artifactPlan_exact (platform : Platform) (sizeBytes limit : UInt64) :
    ((∃ e, artifactPlan platform sizeBytes.toNat limit.toNat = .error e) ↔
      limit = 0 ∨ 2 ^ 32 - 1 < ⌈(sizeBytes.toNat : ℚ) / (min limit.toNat artifactIoBufferBytes : Nat)⌉₊) ∧
    artifactPlanWords platform sizeBytes limit = artifactPlan platform sizeBytes.toNat limit.toNat ∧
    (limit ≠ 0 → ⌈(sizeBytes.toNat : ℚ) / (min limit.toNat artifactIoBufferBytes : Nat)⌉₊ ≤ 2 ^ 32 - 1 →
      checkedAddU64 sizeBytes.toNat (min limit.toNat artifactIoBufferBytes - 1) =
        some (sizeBytes.toNat + (min limit.toNat artifactIoBufferBytes - 1))) ∧
    ∀ plan, artifactPlan platform sizeBytes.toNat limit.toNat = .ok plan →
      plan.chunkBytes = min limit.toNat artifactIoBufferBytes ∧ 1 ≤ plan.chunkBytes ∧ plan.chunkBytes ≤ limit.toNat ∧
      plan.chunkCount = ⌈(sizeBytes.toNat : ℚ) / plan.chunkBytes⌉₊ ∧ (plan.chunkCount = 0 ↔ sizeBytes = 0) ∧
      ∀ context artifactId, CountsDown platform context artifactId plan sizeBytes := by
  have hzero : limit = 0 ↔ limit.toNat = 0 := UInt64.toNat_inj.symm
  refine ⟨?_, artifactPlanWords_eq platform sizeBytes limit, ?_, ?_⟩
  · rw [artifactPlan_fails_iff, hzero]
    by_cases hlimit : limit.toNat = 0
    · simp [hlimit]
    · rw [number_eq_ceil (chunkBytes_pos (Nat.pos_of_ne_zero hlimit))]
  · intro hlimit hcount
    have hpos := chunkBytes_pos (Nat.pos_of_ne_zero (mt hzero.2 hlimit))
    rw [← number_eq_ceil hpos] at hcount
    exact if_pos (add_lt_of_number_lt hpos (Nat.min_le_right _ _) (by omega))
  · intro plan hplan
    obtain ⟨hlimit, hbytes, hcount⟩ := artifactPlan_eq_ok hplan
    have hpos : 0 < plan.chunkBytes := by
      rw [hbytes]
      exact chunkBytes_pos hlimit
    have hempty : plan.chunkCount = 0 ↔ sizeBytes = 0 := by
      have hsome : 0 < plan.chunkCount ↔ 0 < sizeBytes.toNat := by
        rw [hcount, lt_number_iff hpos, Nat.zero_mul]
      rw [← UInt64.toNat_inj]
      change _ ↔ sizeBytes.toNat = 0
      omega
    refine ⟨hbytes, hpos, ?_, ?_, hempty, fun context artifactId => countsDown hplan⟩
    · rw [hbytes]
      exact Nat.min_le_left _ _
    · rw [hcount, number_eq_ceil hpos]

end PluginSdk
