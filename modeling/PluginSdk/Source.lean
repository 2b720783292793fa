import PluginSdk.Artifact
import PluginSdk.Lib.Runs

/-!
# The source of an artifact

A seekable source with a content and a position.  It may split its reads as it likes, as long as every read before
the end yields a byte.  The check of a source reads it to its end and goes back to where it was; what comes of it
depends on the bytes that were left, and not on how they were read (`validateSource_runs`).
-/

namespace PluginSdk

open Program

structure Source where
  content : List UInt8
  position : Nat
deriving DecidableEq

namespace Source

/-- The bytes from the position to the end. -/
def unread (source : Source) : List UInt8 := source.content.drop source.position

def advance (source : Source) (count : Nat) : Source := { source with position := source.position + count }

theorem unread_advance (source : Source) (count : Nat) :
    (source.advance count).unread = source.unread.drop count := by
  unfold unread advance
  rw [List.drop_drop]

/-- What a source that does not fail answers, and where it is then. -/
inductive Yields : Source → (o : ContextOp) → o.Reply → Source → Prop
  | position {source : Source} :
      Yields source .streamPosition (Selected.ready (α := Except String Nat) (.ok source.position)) source
  | seek {source : Source} {position : Nat} :
      Yields source (.seekStart position) (Selected.ready (α := Except String Nat) (.ok position))
      { source with position }
  | endOfFile {source : Source} {limit : Nat} : source.unread = [] →
      Yields source (.read limit) (Selected.ready (α := Except String (List UInt8)) (.ok [])) source
  | read {source : Source} {limit : Nat} {bytes : List UInt8} : bytes ≠ [] → bytes.length ≤ limit →
      bytes <+: source.unread →
      Yields source (.read limit) (Selected.ready (α := Except String (List UInt8)) (.ok bytes))
        (source.advance bytes.length)
  | readExact {source : Source} {length : Nat} : length ≤ source.unread.length →
      Yields source (.readExact length)
        (Selected.ready (α := Except String (List UInt8)) (.ok (source.unread.take length))) (source.advance length)

/-- The operations that a source which does not fail can always answer. -/
def Serves : ContextOp → Prop
  | .streamPosition | .seekStart _ => True
  | .read limit => 0 < limit
  | _ => False

private theorem exists_yields (source : Source) (o : ContextOp) (h : Serves o) :
    ∃ r source', Yields source o r source' := by
  cases o with
  | streamPosition => exact ⟨_, _, .position⟩
  | seekStart => exact ⟨_, _, .seek⟩
  | read limit =>
    cases hu : source.unread with
    | nil => exact ⟨_, _, .endOfFile hu⟩
    | cons byte rest =>
      have hprefix : [byte] <+: source.unread := ⟨rest, hu.symm⟩
      have hlimit : [byte].length ≤ limit := show 0 < limit from h
      exact ⟨_, _, .read (List.cons_ne_nil _ _) hlimit hprefix⟩
  | _ => exact h.elim

end Source

section Runs

variable {source source' : Source} {size reads n n' : Nat} {bytes : List UInt8}

/-- The overflow of the size. -/
def sizeOverflowed : SdkError := .invalidArgument "artifact size overflowed"

/-- What the loop does next: it has not read yet, or it is at the end, or some bytes have come, with or without an
overflow of their number. -/
private theorem readToEnd_cases {q : Program ContextOp ContextOp.Reply (Except SdkError (Nat × List UInt8))}
    (h : Runs (counting Source.Yields) (source, n) (readToEnd (reads + 1) size bytes).run (source', n') q) :
    (source' = source ∧ n' = n ∧ q = (readToEnd (reads + 1) size bytes).run) ∨
      (source.unread = [] ∧ source' = source ∧ n' = n + 1 ∧ q = .pure (.ok (size, bytes))) ∨
      ∃ read m, read ≠ [] ∧ source.unread = read ++ m.unread ∧ m.content = source.content ∧
        (2 ^ 64 ≤ size + read.length ∧ source' = m ∧ n' = n + 1 ∧ q = .pure (.error sizeOverflowed) ∨
          size + read.length < 2 ^ 64 ∧ Runs (counting Source.Yields) (m, n + 1)
            (readToEnd reads (size + read.length) (bytes ++ read)).run (source', n') q) := by
  rcases Runs.op_bind_inv h with ⟨heq, rfl⟩ | ⟨reply, ⟨m, n₁⟩, ⟨hreply, hn⟩, hrest⟩
  · cases heq
    exact Or.inl ⟨rfl, rfl, rfl⟩
  · obtain rfl : n₁ = n + 1 := hn
    right
    cases hreply with
    | endOfFile hu =>
      replace hrest := Runs.ok_bind hrest rfl
      rw [if_pos rfl] at hrest
      obtain ⟨heq, rfl⟩ := Runs.pure_inv hrest
      cases heq
      exact Or.inl ⟨hu, rfl, rfl, rfl⟩
    | @read _ read hne _ hprefix =>
      replace hrest := Runs.ok_bind hrest rfl
      rw [if_neg hne] at hrest
      obtain ⟨rest, hread⟩ := hprefix
      have hunread : source.unread = read ++ (source.advance read.length).unread := by
        rw [Source.unread_advance, ← hread, List.drop_left]
      refine Or.inr ⟨read, source.advance read.length, hne, hunread, rfl, ?_⟩
      by_cases hsum : size + read.length < 2 ^ 64
      · rw [show checkedAddU64 size read.length = some (size + read.length) from if_pos hsum] at hrest
        exact Or.inr ⟨hsum, hrest⟩
      · rw [show checkedAddU64 size read.length = none from if_neg hsum] at hrest
        obtain ⟨heq, rfl⟩ := Runs.pure_inv hrest
        cases heq
        exact Or.inl ⟨by omega, rfl, rfl, rfl⟩

/-- The loop between two reads, or at its end. -/
structure ReadToEnd (source : Source) (size : Nat) (bytes : List UInt8) (source' : Source) (count : Nat)
    (q : Program ContextOp ContextOp.Reply (Except SdkError (Nat × List UInt8))) : Prop where
  content : source'.content = source.content
  bounded : count ≤ source.unread.length + 1
  ended : ∀ r, q = .pure r → r =
    if size + source.unread.length < 2 ^ 64 then .ok (size + source.unread.length, bytes ++ source.unread)
    else .error sizeOverflowed
  reading : (∃ r, q = .pure r) ∨ ∃ read reads, source.unread = read ++ source'.unread ∧ size + read.length < 2 ^ 64 ∧
    q = (readToEnd reads (size + read.length) (bytes ++ read)).run

/-- The whole rest of the source is read, unless its size is no `u64`; the number of reads is no bound. -/
private theorem readToEnd_inv {q : Program ContextOp ContextOp.Reply (Except SdkError (Nat × List UInt8))}
    (hreads : 2 ^ 64 < size + reads) (hsize : size < 2 ^ 64)
    (h : Runs (counting Source.Yields) (source, n) (readToEnd reads size bytes).run (source', n') q) :
    ReadToEnd source size bytes source' (n' - n) q := by
  induction reads generalizing source size bytes n with
  | zero => omega
  | succ reads ih =>
    rcases readToEnd_cases h with ⟨rfl, rfl, rfl⟩ | ⟨hu, rfl, rfl, rfl⟩ | ⟨read, m, hne, hunread, hcontent, hrest⟩
    · refine ⟨rfl, by omega, fun r hr => ?_, Or.inr ⟨[], reads + 1, rfl, hsize, ?_⟩⟩
      · cases hr
      · rw [List.append_nil]
        rfl
    · refine ⟨rfl, by omega, fun r hr => ?_, Or.inl ⟨_, rfl⟩⟩
      cases hr
      rw [hu, List.length_nil, Nat.add_zero, List.append_nil, if_pos hsize]
    · have hpos : 0 < read.length := List.length_pos_of_ne_nil hne
      have hlength : source.unread.length = read.length + m.unread.length := by rw [hunread, List.length_append]
      rcases hrest with ⟨hover, rfl, rfl, rfl⟩ | ⟨hsum, hrest⟩
      · refine ⟨hcontent, by omega, fun r hr => ?_, Or.inl ⟨_, rfl⟩⟩
        cases hr
        rw [if_neg (by omega)]
      · obtain ⟨hcontent', hbounded, hended, hreading⟩ := ih (by omega) hsum hrest
        refine ⟨hcontent'.trans hcontent, by omega, fun r hr => ?_, ?_⟩
        · rw [hended r hr, hlength, hunread, Nat.add_assoc, List.append_assoc]
        · rcases hreading with hr | ⟨read', reads', hunread', hsum', rfl⟩
          · exact Or.inl hr
          · refine Or.inr ⟨read ++ read', reads', ?_, ?_, ?_⟩
            · rw [hunread, hunread', List.append_assoc]
            · rw [List.length_append]
              omega
            · rw [List.length_append, Nat.add_assoc, List.append_assoc]

/-! ### The check of a source -/

variable {platform : Platform} {descriptor : ArtifactDescriptor}

/-- The error of a source that is not what its descriptor says. -/
def sourceDiffers : SdkError := .invalidArgument "artifact size or SHA-256 does not match its source"

/-- What the check of some bytes comes to. -/
def checkBytes (platform : Platform) (descriptor : ArtifactDescriptor) (bytes : List UInt8) : Except SdkError Unit :=
  if bytes.length < 2 ^ 64 then
    if bytes.length ≠ descriptor.sizeBytes ∨ platform.sha256 bytes ≠ descriptor.sha256 then .error sourceDiffers
    else .ok ()
  else .error sizeOverflowed

private theorem checkBytes_eq_ok {bytes : List UInt8} (hsize : descriptor.sizeBytes < 2 ^ 64) :
    checkBytes platform descriptor bytes = .ok () ↔
      bytes.length = descriptor.sizeBytes ∧ platform.sha256 bytes = descriptor.sha256 := by
  unfold checkBytes
  constructor
  · intro h
    split at h
    · split at h
      · cases h
      · rename_i hsame
        exact ⟨not_not.1 fun hne => hsame (Or.inl hne), not_not.1 fun hne => hsame (Or.inr hne)⟩
    · cases h
  · rintro ⟨hlength, hdigest⟩
    rw [if_pos (hlength ▸ hsize), if_neg (by simp [hlength, hdigest])]

private theorem readToEnd_serves : (readToEnd reads size bytes).run.All Source.Serves := by
  induction reads generalizing size bytes with
  | zero => trivial
  | succ reads ih =>
    refine All.except_bind ⟨show 0 < artifactIoBufferBytes by decide, fun _ => trivial⟩ fun read => ?_
    split
    · trivial
    · split
      · trivial
      · exact ih

/-- A source that does not fail answers all that the check asks. -/
theorem validateSource_serves : (validateSource platform descriptor).run.All Source.Serves := by
  refine All.except_bind ⟨trivial, fun _ => trivial⟩ fun start => readToEnd_serves.except_bind fun result => ?_
  refine All.except_bind ⟨trivial, fun _ => trivial⟩ fun _ => ?_
  split <;> trivial

/-- However the source splits its reads, the check comes to what the bytes that were left deserve, and goes back to
where it was. -/
theorem validateSource_inv {q : Program ContextOp ContextOp.Reply (Except SdkError Unit)}
    (h : Runs (counting Source.Yields) (source, n) (validateSource platform descriptor).run (source', n') q) :
    n' ≤ n + source.unread.length + 3 ∧ ∀ r, q = .pure r →
      r = checkBytes platform descriptor source.unread ∧ (source.unread.length < 2 ^ 64 → source' = source) := by
  rcases Runs.op_bind_inv h with ⟨heq, rfl⟩ | ⟨start, ⟨m₁, n₁⟩, ⟨hstart, hn₁⟩, hrest⟩
  · cases heq
    exact ⟨by omega, fun r hr => by cases hr⟩
  · obtain rfl : n₁ = n + 1 := hn₁
    cases hstart
    rcases Runs.except_bind_inv (Runs.ok_bind hrest rfl) with ⟨p', hread, -, hstopped⟩ | ⟨⟨size, bytes⟩,
      ⟨m, n₂⟩, hread, hseek⟩
    · -- The loop has not ended, or has stopped with an overflow.
      have hloop := readToEnd_inv (by omega) (by omega) hread
      have hbounded := hloop.bounded
      refine ⟨by omega, fun r hr => ?_⟩
      obtain ⟨e, rfl, rfl⟩ := hstopped r hr
      have hended := hloop.ended _ rfl
      split at hended
      · cases hended
      · rename_i hover
        cases hended
        rw [Nat.zero_add] at hover
        exact ⟨by rw [checkBytes, if_neg hover], fun h => absurd h hover⟩
    · have hloop := readToEnd_inv (by omega) (by omega) hread
      have hbounded := hloop.bounded
      have hended := hloop.ended _ rfl
      rcases Runs.op_bind_inv hseek with ⟨heq, rfl⟩ | ⟨reply, ⟨m', n₃⟩, ⟨hreply, hn₃⟩, hlast⟩
      · cases heq
        exact ⟨by omega, fun r hr => by cases hr⟩
      · obtain rfl : n₃ = n₂ + 1 := hn₃
        cases hreply
        have hback : (⟨m.content, source.position⟩ : Source) = source := by rw [hloop.content]
        replace hlast := Runs.ok_bind hlast rfl
        split at hended
        · rename_i hsmall
          rw [Nat.zero_add] at hended hsmall
          cases hended
          have hcheck : ∀ r, (if source.unread.length ≠ descriptor.sizeBytes ∨
              platform.sha256 source.unread ≠ descriptor.sha256
            then Except.error sourceDiffers else .ok ()) = r → r = checkBytes platform descriptor source.unread := by
            rintro r rfl
            rw [checkBytes, if_pos hsmall]
          rw [List.nil_append] at hlast
          by_cases hdiffers : source.unread.length ≠ descriptor.sizeBytes ∨
            platform.sha256 source.unread ≠ descriptor.sha256
          · rw [if_pos hdiffers] at hlast hcheck
            obtain ⟨heq, rfl⟩ := Runs.pure_inv hlast
            cases heq
            exact ⟨by omega, fun r hr => ⟨hcheck r (Program.pure.inj hr), fun _ => hback⟩⟩
          · rw [if_neg hdiffers] at hlast hcheck
            obtain ⟨heq, rfl⟩ := Runs.pure_inv hlast
            cases heq
            exact ⟨by omega, fun r hr => ⟨hcheck r (Program.pure.inj hr), fun _ => hback⟩⟩
        · cases hended

/-- The check of a source asks a bounded number of operations and then comes to its end, and succeeds if and only if
the bytes that were left are those of the descriptor.  Whether they are or not, the source is then where it was.  On
the way the checked size is the number of bytes read, which is a `u64`. -/
theorem validateSource_independent (platform : Platform) (descriptor : ArtifactDescriptor) (source : Source)
    (hsize : descriptor.sizeBytes < 2 ^ 64) :
    (∀ source' count q,
      Runs (counting Source.Yields) (source, 0) (validateSource platform descriptor).run (source', count) q →
      count ≤ source.unread.length + 3 ∧ ∃ last r, Runs Source.Yields source' q last (.pure r)) ∧
    (∀ source' r, Runs Source.Yields source (validateSource platform descriptor).run source' (.pure r) →
      (r = .ok () ↔
        source.unread.length = descriptor.sizeBytes ∧ platform.sha256 source.unread = descriptor.sha256) ∧
      (r = .ok () ∨ r = .error sourceDiffers → source' = source) ∧
      (source.unread.length < 2 ^ 64 → r = .ok () ∨ r = .error sourceDiffers)) ∧
    ∀ source' count q,
      Runs (counting Source.Yields) (source, 0) (readToEnd (2 ^ 64 + 1) 0 []).run (source', count) q →
      ReadToEnd source 0 [] source' count q := by
  refine ⟨fun source' count q h => ?_, fun source' r h => ?_, fun source' count q h => ?_⟩
  · have hcount := (validateSource_inv h).1
    have hserves := h.all validateSource_serves
    exact ⟨by omega, Runs.exists_pure Source.exists_yields hserves source'⟩
  · obtain ⟨count, hcounted⟩ := h.counted 0
    obtain ⟨rfl, hback⟩ := (validateSource_inv hcounted).2 r rfl
    refine ⟨checkBytes_eq_ok hsize, fun hr => hback ?_, fun hsmall => ?_⟩
    · by_contra hlarge
      rw [checkBytes, if_neg hlarge] at hr
      rcases hr with hr | hr <;> simp [sizeOverflowed, sourceDiffers] at hr
    · rw [checkBytes, if_pos hsmall]
      split
      · exact Or.inr rfl
      · exact Or.inl rfl
  · exact readToEnd_inv (by omega) (by omega) h

/-- A source of three bytes that starts at its second one. -/
def sampleSource : Source := ⟨[6, 7, 8], 1⟩

/-- The digest of the bytes `7` and `8`. -/
def sampleDigest : List UInt8 :=
  [189, 124, 37, 5, 102, 198, 233, 159, 71, 193, 116, 181, 137, 183, 85, 31, 139, 14, 147, 14, 208,
    86, 81, 29, 30, 143, 101, 59, 199, 29, 60, 74]

theorem validateSource_independent_sampleSource : Runs Source.Yields sampleSource
    (validateSource ⟨2 ^ 64 - 1, by decide, fun _ => sampleDigest⟩ ⟨none, "", "", 2, sampleDigest⟩).run
    sampleSource (.pure (.ok ())) := by
  have hindependent := validateSource_independent ⟨2 ^ 64 - 1, by decide, fun _ => sampleDigest⟩
    ⟨none, "", "", 2, sampleDigest⟩ sampleSource (by decide)
  obtain ⟨-, source', r, h⟩ := hindependent.1 sampleSource 0 _ .refl
  obtain ⟨hok, hback, -⟩ := hindependent.2.1 source' r h
  obtain rfl := hok.2 ⟨rfl, rfl⟩
  obtain rfl := hback (Or.inl rfl)
  exact h

end Runs

end PluginSdk
