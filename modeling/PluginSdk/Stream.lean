import PluginSdk.Source
import PluginSdk.Calls
import PluginSdk.Transfer
import PluginSdk.Lib.Pieces

/-!
# The stream of an artifact

What a call of `store_artifact` exchanges with the host: what it puts on the wire and the answers that it takes, in
their order.  Wherever the call stops (`Short`), because it is cancelled, because its source fails or because an
answer is not the one that it waits for, it has exchanged a part of the whole stream (`storeArtifact_runs`).
-/

namespace PluginSdk

open Program Pieces

inductive Exchange
  | put (payload : Payload)
  | answered (payload : Payload)

namespace Exchange

def sent : Exchange → Option Payload
  | put payload => some payload
  | answered _ => none

end Exchange

/-- What is put on the wire. -/
def puts (es : List Exchange) : List Payload := es.filterMap Exchange.sent

@[simp] theorem puts_append (es es' : List Exchange) : puts (es ++ es') = puts es ++ puts es' := List.filterMap_append

/-! ### Falling short -/

/-- The exchange stops before the whole of it, or at an answer that is another one. -/
def Short (whole es : List Exchange) : Prop :=
  (∃ e rest, whole = es ++ e :: rest) ∨
    ∃ before a b rest, es = before ++ [.answered a] ∧ whole = before ++ .answered b :: rest ∧ a ≠ b

namespace Short

variable {whole es : List Exchange}

private theorem of_append {rest : List Exchange} (h : rest ≠ []) : Short (es ++ rest) es := by
  obtain ⟨e, rest, rfl⟩ := List.exists_cons_of_ne_nil h
  exact Or.inl ⟨e, rest, rfl⟩

private theorem append_left (h : Short whole es) (first : List Exchange) : Short (first ++ whole) (first ++ es) := by
  rcases h with ⟨e, rest, rfl⟩ | ⟨before, a, b, rest, rfl, rfl, hne⟩
  · exact Or.inl ⟨e, rest, by simp⟩
  · exact Or.inr ⟨first ++ before, a, b, rest, by simp, by simp, hne⟩

theorem ne (h : Short whole es) : es ≠ whole := by
  rintro rfl
  rcases h with ⟨e, rest, heq⟩ | ⟨before, a, b, rest, heq, hwhole, hne⟩
  · simpa using congrArg List.length heq
  · rw [heq] at hwhole
    have hlast := List.append_cancel_left hwhole
    simp only [List.cons.injEq, Exchange.answered.injEq] at hlast
    exact hne hlast.1

/-- What is put on the wire is a part of the whole. -/
theorem puts_prefix (h : Short whole es) : puts es <+: puts whole := by
  rcases h with ⟨e, rest, rfl⟩ | ⟨before, a, b, rest, rfl, rfl, -⟩
  · exact ⟨puts (e :: rest), (puts_append ..).symm⟩
  · refine ⟨puts rest, ?_⟩
    rw [puts_append, puts_append, List.append_assoc]
    rfl

/-- Before an envelope is put on the wire, all has gone as in the whole. -/
theorem put_prefix (h : Short whole es) {before after : List Exchange} {payload : Payload}
    (hes : es = before ++ Exchange.put payload :: after) : before ++ [Exchange.put payload] <+: whole := by
  rcases h with ⟨e, rest, rfl⟩ | ⟨before', a, b, rest, heq, rfl, -⟩
  · exact ⟨after ++ e :: rest, by simp [hes]⟩
  · have hmem : before ++ [Exchange.put payload] <+: before' ++ [Exchange.answered a] := ⟨after, by simp [← heq, hes]⟩
    rcases List.prefix_concat_iff.1 hmem with heq' | hprefix
    · have hlast := List.append_inj_right' heq' rfl
      simp at hlast
    · exact hprefix.trans ⟨_, rfl⟩

end Short

/-! ### What a call exchanges -/

namespace ContextOp

/-- The operations on the source of an artifact. -/
def OfSource : ContextOp → Prop
  | streamPosition | seekStart _ | read _ | readExact _ => True
  | _ => False

/-- The source has not answered: the operation was cancelled, or has failed. -/
def Failed : (o : ContextOp) → o.Reply → Prop
  | streamPosition, r | seekStart _, r => ∀ position, r ≠ Selected.ready (α := Except String Nat) (.ok position)
  | read _, r | readExact _, r => ∀ bytes, r ≠ Selected.ready (α := Except String (List UInt8)) (.ok bytes)
  | _, _ => False

end ContextOp

/-- What a call can be answered by a source that may fail and by a host that may say anything, and what it has
exchanged with the host then.  After a failure nothing is known of the position of the source. -/
inductive Carries : Source × List Exchange → (o : ContextOp) → o.Reply → Source × List Exchange → Prop
  | ensureActive {source : Source} {es : List Exchange} {active : Bool} :
      Carries (source, es) .ensureActive active (source, es)
  | now {source : Source} {es : List Exchange} {timestamp : Timestamp} :
      Carries (source, es) .now timestamp (source, es)
  | yields {source source' : Source} {es : List Exchange} {o : ContextOp} {r : o.Reply} : source.Yields o r source' →
      Carries (source, es) o r (source', es)
  | failed {source source' : Source} {es : List Exchange} {o : ContextOp} {r : o.Reply} : o.Failed r →
      Carries (source, es) o r (source', es)
  | sent {source : Source} {es : List Exchange} {trace : TraceContext} {payload : Payload} :
      Carries (source, es) (.send trace payload) (Selected.ready (α := Except SdkError Unit) (.ok ()))
        (source, es ++ [.put payload])
  | unsent {source : Source} {es : List Exchange} {trace : TraceContext} {payload : Payload}
      {r : Selected (Except SdkError Unit)} : r ≠ .ready (.ok ()) →
      Carries (source, es) (.send trace payload) r (source, es)
  | answered {source : Source} {es : List Exchange} {trace : TraceContext} {payload answer : Payload} :
      Carries (source, es) (.request trace payload) (Selected.ready (HostClient.received answer))
        (source, es ++ [.put payload, .answered answer])
  /-- The request is cancelled or fails, before or after it is enqueued. -/
  | unanswered {source : Source} {es es' : List Exchange} {trace : TraceContext} {payload : Payload}
      {r : Selected (Except SdkError Payload)} : (∀ answer, r ≠ .ready (.ok answer)) → es' = [] ∨
      es' = [.put payload] → Carries (source, es) (.request trace payload) r (source, es ++ es')

/-- The program ends with an error once its source has failed. -/
def Strict {α : Type} : Program ContextOp ContextOp.Reply (Except SdkError α) → Prop
  | .pure _ => True
  | .op o k => ∀ r, (o.Failed r → ∃ e, k r = .pure (.error e)) ∧ Strict (k r)

section Sources

variable {α β : Type} {source source' : Source} {es es' : List Exchange} {platform : Platform}
  {descriptor : ArtifactDescriptor}

private theorem Strict.except_bind {x : ContextProgram α} {f : α → ContextProgram β} (hx : Strict x.run)
    (hf : ∀ a, Strict (f a).run) : Strict (x >>= f).run := by
  rw [ExceptT.run_bind]
  generalize x.run = p at hx
  induction p with
  | pure r =>
    cases r with
    | error e => trivial
    | ok a => exact hf a
  | op o k ih =>
    intro r
    refine ⟨fun hfailed => ?_, ih r (hx r).2⟩
    obtain ⟨e, he⟩ := (hx r).1 hfailed
    exact ⟨e, (congrArg (Program.bind · _) he).trans rfl⟩

private theorem selected_failed {r : Selected (Except SdkError α)} (h : ∀ a, r ≠ .ready (.ok a)) :
    ∃ e, ContextProgram.selected r = .error e := by
  rcases r with _ | (e | a)
  · exact ⟨_, rfl⟩
  · exact ⟨_, rfl⟩
  · exact absurd rfl (h a)

private theorem selectedIo_failed {operation : String} {r : Selected (Except String α)}
    (h : ∀ a, r ≠ .ready (.ok a)) : ∃ e, ContextProgram.selectedIo operation r = .error e := by
  rcases r with _ | (source | a)
  · exact ⟨_, rfl⟩
  · exact ⟨_, rfl⟩
  · exact absurd rfl (h a)

private theorem streamPosition_strict {operation : String} : Strict (ContextProgram.streamPosition operation).run :=
  fun _ => ⟨fun hfailed => (selectedIo_failed hfailed).imp fun _ => congrArg Program.pure, trivial⟩

private theorem read_strict {limit : Nat} {operation : String} : Strict (ContextProgram.read limit operation).run :=
  fun _ => ⟨fun hfailed => (selectedIo_failed hfailed).imp fun _ => congrArg Program.pure, trivial⟩

private theorem seekStart_strict {position : Nat} {operation : String} :
    Strict (ContextProgram.seekStart position operation).run :=
  fun _ => ⟨fun hfailed => (selectedIo_failed hfailed).imp fun _ => congrArg Program.pure, trivial⟩

private theorem readToEnd_strict {reads size : Nat} {bytes : List UInt8} :
    Strict (readToEnd reads size bytes).run := by
  induction reads generalizing size bytes with
  | zero => trivial
  | succ reads ih =>
    refine read_strict.except_bind fun read => ?_
    split
    · trivial
    · split
      · trivial
      · exact ih

private theorem validateSource_strict : Strict (validateSource platform descriptor).run := by
  refine streamPosition_strict.except_bind fun start => readToEnd_strict.except_bind fun result => ?_
  refine seekStart_strict.except_bind fun _ => ?_
  split <;> trivial

/-- Work on the source exchanges nothing with the host. -/
private theorem silent_of_serves {p q : Program ContextOp ContextOp.Reply α} (hp : p.All Source.Serves)
    (h : Runs Carries (source, es) p (source', es') q) : es' = es := by
  generalize hs : (source, es) = s at h
  generalize ht : (source', es') = t at h
  induction h generalizing source es with
  | refl =>
    cases hs.trans ht.symm
    rfl
  | step hr _ ih =>
    have hserves := hp.1
    cases hr with
    | yields => cases hs; exact ih (hp.2 _) rfl ht
    | failed => cases hs; exact ih (hp.2 _) rfl ht
    | _ => exact hserves.elim

/-- A program that has succeeded has been answered by its source. -/
private theorem yields_of_strict {p : Program ContextOp ContextOp.Reply (Except SdkError α)} {a : α}
    (hp : p.All Source.Serves) (hstrict : Strict p) (h : Runs Carries (source, es) p (source', es') (.pure (.ok a))) :
    Runs Source.Yields source p source' (.pure (.ok a)) := by
  generalize hs : (source, es) = s at h
  generalize ht : (source', es') = t at h
  generalize hq : (Program.pure (Except.ok a) : Program ContextOp ContextOp.Reply (Except SdkError α)) = q at h
  induction h generalizing source es with
  | refl =>
    cases hs.trans ht.symm
    subst hq
    exact .refl
  | step hr hrest ih =>
    have hserves := hp.1
    cases hr with
    | yields hyields => cases hs; exact .step hyields (ih (hp.2 _) (hstrict _).2 rfl ht hq)
    | failed hfailed =>
      obtain ⟨e, he⟩ := (hstrict _).1 hfailed
      rw [he] at hrest
      obtain ⟨-, hend⟩ := Runs.pure_inv hrest
      cases hq.trans hend
    | _ => exact hserves.elim

/-- A source that has passed the check is where it was, and has as many bytes as the descriptor says. -/
theorem validateSource_ok (h : Runs Carries (source, es) (validateSource platform descriptor).run (source', es')
    (.pure (.ok ()))) : source' = source ∧ es' = es ∧ source.unread.length = descriptor.sizeBytes := by
  obtain ⟨count, hcounted⟩ := (yields_of_strict validateSource_serves validateSource_strict h).counted 0
  obtain ⟨hok, hback⟩ := (validateSource_inv hcounted).2 _ rfl
  refine ⟨hback ?_, silent_of_serves validateSource_serves h, ?_⟩
  · by_contra hlarge
    rw [checkBytes, if_neg hlarge] at hok
    cases hok
  · unfold checkBytes at hok
    split at hok
    · split at hok
      · cases hok
      · rename_i hsame
        exact not_not.1 fun hne => hsame (Or.inl hne)
    · cases hok

end Sources

/-! ### The whole of a transfer -/

/-- The chunks from `index` on. -/
def chunks (artifactId : Option PluginArtifactId) : Nat → List (List UInt8) → List Payload
  | _, [] => []
  | index, data :: rest => .artifactChunk ⟨artifactId, index, data⟩ :: chunks artifactId (index + 1) rest

def artifactStart (jobId : String) (descriptor : ArtifactDescriptor) (pieces : List (List UInt8)) : Payload :=
  .artifactStart ⟨some ⟨jobId⟩, some descriptor, pieces.length⟩

/-- All that the transfer of an artifact puts on the wire. -/
def artifactStream (jobId : String) (descriptor : ArtifactDescriptor) (pieces : List (List UInt8)) : List Payload :=
  artifactStart jobId descriptor pieces :: chunks descriptor.artifactId 0 pieces ++
    [.artifactComplete ⟨descriptor.artifactId⟩]

/-- With the answers that it waits for. -/
def wholeExchange (jobId : String) (descriptor : ArtifactDescriptor) (pieces : List (List UInt8)) : List Exchange :=
  [Exchange.put (artifactStart jobId descriptor pieces), .answered (.artifactAccepted ⟨descriptor.artifactId⟩)] ++
    ((chunks descriptor.artifactId 0 pieces).map .put ++
      [Exchange.put (.artifactComplete ⟨descriptor.artifactId⟩), .answered (.artifactStored ⟨descriptor.artifactId⟩)])

private theorem puts_map_put (payloads : List Payload) : puts (payloads.map .put) = payloads := by
  induction payloads with
  | nil => rfl
  | cons payload rest ih => exact congrArg (payload :: ·) ih

theorem puts_wholeExchange (jobId : String) (descriptor : ArtifactDescriptor) (pieces : List (List UInt8)) :
    puts (wholeExchange jobId descriptor pieces) = artifactStream jobId descriptor pieces := by
  unfold wholeExchange artifactStream
  rw [puts_append, puts_append, puts_map_put]
  rfl

/-! ### What the operations carry -/

namespace Carries

variable {source : Source} {es : List Exchange} {s : Source × List Exchange}

private theorem ensureActive_inv {active : Bool} (h : Carries (source, es) .ensureActive active s) :
    s = (source, es) := by
  cases h with
  | ensureActive => rfl
  | yields hyields => cases hyields
  | failed hfailed => exact hfailed.elim

private theorem readExact_inv {length : Nat} {r : Selected (Except String (List UInt8))}
    (h : Carries (source, es) (.readExact length) r s) :
    s.2 = es ∧ (length ≤ source.unread.length ∧ r = .ready (.ok (source.unread.take length)) ∧
      s.1 = source.advance length ∨ ∀ bytes, r ≠ .ready (.ok bytes)) := by
  cases h with
  | yields hyields =>
    cases hyields with
    | readExact hle => exact ⟨rfl, Or.inl ⟨hle, rfl, rfl⟩⟩
  | failed hfailed => exact ⟨rfl, Or.inr hfailed⟩

private theorem send_inv {trace : TraceContext} {payload : Payload} {r : Selected (Except SdkError Unit)}
    (h : Carries (source, es) (.send trace payload) r s) :
    r = .ready (.ok ()) ∧ s = (source, es ++ [.put payload]) ∨ r ≠ .ready (.ok ()) ∧ s = (source, es) := by
  cases h with
  | yields hyields => cases hyields
  | failed hfailed => exact hfailed.elim
  | sent => exact Or.inl ⟨rfl, rfl⟩
  | unsent hr => exact Or.inr ⟨hr, rfl⟩

private theorem request_inv {trace : TraceContext} {payload : Payload} {r : Selected (Except SdkError Payload)}
    (h : Carries (source, es) (.request trace payload) r s) :
    (∃ answer, r = .ready (HostClient.received answer) ∧ s = (source, es ++ [.put payload, .answered answer])) ∨
      (∀ answer, r ≠ .ready (.ok answer)) ∧ (s = (source, es) ∨ s = (source, es ++ [.put payload])) := by
  cases h with
  | yields hyields => cases hyields
  | failed hfailed => exact hfailed.elim
  | answered => exact Or.inl ⟨_, rfl, rfl⟩
  | unanswered hr hes =>
    rcases hes with rfl | rfl
    · exact Or.inr ⟨hr, Or.inl (by rw [List.append_nil])⟩
    · exact Or.inr ⟨hr, Or.inr rfl⟩

end Carries

section Transfers

variable {source source' : Source} {es es' : List Exchange} {context : ActionContext} {platform : Platform}
  {descriptor : ArtifactDescriptor} {artifactId : PluginArtifactId} {chunkBytes count index : Nat}

/-- The loop is in its iteration `i`: the first `i` pieces are on the wire, and `rest` bytes are still to be sent. -/
structure InIteration (context : ActionContext) (artifactId : PluginArtifactId) (chunkBytes count index : Nat)
    (bytes : List UInt8) (es es' : List Exchange) (source' : Source)
    (q : Program ContextOp ContextOp.Reply (Except SdkError Unit)) (i rest : Nat) : Prop where
  le : i ≤ count
  sent : es' = es ++ (chunks (some artifactId) index ((pieces chunkBytes count bytes).take i)).map .put
  remaining : rest + ((pieces chunkBytes count bytes).take i).flatten.length = bytes.length
  exhausted : rest = 0 ↔ i = count
  runs : ∃ m, Runs Carries (m, es') (context.sendChunks artifactId chunkBytes (count - i) (index + i) rest).run
    (source', es') q
  ended : (∃ u, q = .pure (.ok u)) ↔ i = count

/-- An iteration of the rest of the loop is the next one of the loop. -/
private theorem InIteration.succ {bytes : List UInt8} {q : Program ContextOp ContextOp.Reply (Except SdkError Unit)}
    {i rest : Nat} (h : InIteration context artifactId chunkBytes count (index + 1) (bytes.drop chunkBytes)
      (es ++ [.put (.artifactChunk ⟨some artifactId, index, bytes.take chunkBytes⟩)]) es' source' q i rest) :
    InIteration context artifactId chunkBytes (count + 1) index bytes es es' source' q (i + 1) rest := by
  have hle := h.le
  refine ⟨by omega, ?_, ?_, ?_, ?_, ?_⟩
  · rw [h.sent, pieces, List.take_succ_cons, List.append_assoc]
    rfl
  · have hremaining := h.remaining
    rw [List.length_drop] at hremaining
    rw [pieces, List.take_succ_cons, List.flatten_cons, List.length_append, List.length_take]
    omega
  · rw [h.exhausted]
    omega
  · obtain ⟨m, hm⟩ := h.runs
    rw [show index + 1 + i = index + (i + 1) by omega] at hm
    exact ⟨m, by rwa [Nat.succ_sub_succ]⟩
  · rw [h.ended]
    omega

/-- Wherever the loop is, it is in one of its iterations; the subtraction from the rest is exact. -/
theorem sendChunks_runs {q : Program ContextOp ContextOp.Reply (Except SdkError Unit)}
    (hcovers : Covers chunkBytes count source.unread)
    (h : Runs Carries (source, es)
      (context.sendChunks artifactId chunkBytes count index source.unread.length).run (source', es') q) :
    ∃ i rest, InIteration context artifactId chunkBytes count index source.unread es es' source' q i rest := by
  induction count generalizing source index es with
  | zero =>
    obtain ⟨heq, rfl⟩ := Runs.pure_inv h
    cases heq
    have hlength : source'.unread.length = 0 := by
      have henough := hcovers.enough
      omega
    exact ⟨0, 0, le_rfl, by simp [pieces, chunks], by simp [hlength], by simp, ⟨source', .refl⟩, by simp⟩
  | succ count ih =>
    have hpos := hcovers.pos
    -- Nothing has been put on the wire in this iteration.
    have hnone : es' = es → (∀ u, q ≠ .pure (.ok u)) → ∃ i rest,
        InIteration context artifactId chunkBytes (count + 1) index source.unread es es' source' q i rest := by
      rintro rfl hq
      refine ⟨0, source.unread.length, Nat.zero_le _, by simp [chunks], by simp, by omega, ⟨source, h⟩, ?_⟩
      constructor
      · rintro ⟨u, hu⟩
        exact absurd hu (hq u)
      · intro h
        omega
    rcases Runs.op_bind_inv h with ⟨heq, rfl⟩ | ⟨active, m, hactive, hread⟩
    · cases heq
      exact hnone rfl fun u hu => by cases hu
    · obtain rfl := hactive.ensureActive_inv
      cases (active : Bool) with
      | false =>
        obtain ⟨heq, rfl⟩ := Runs.error_bind hread rfl
        cases heq
        exact hnone rfl fun u hu => by cases hu
      | true =>
        rcases Runs.op_bind_inv (Runs.ok_bind hread rfl) with ⟨heq, rfl⟩ | ⟨reply, ⟨m, _⟩, hreply, hsend⟩
        · cases heq
          exact hnone rfl fun u hu => by cases hu
        · obtain ⟨rfl, ⟨-, rfl, rfl⟩ | hfailed⟩ := hreply.readExact_inv
          · rcases Runs.op_bind_inv (Runs.ok_bind hsend rfl) with ⟨heq, rfl⟩ | ⟨reply, m, hreply, hrest⟩
            · cases heq
              exact hnone rfl fun u hu => by cases hu
            · rcases hreply.send_inv with ⟨rfl, rfl⟩ | ⟨hunsent, rfl⟩
              · replace hrest := Runs.ok_bind hrest rfl
                have htake : source.unread.take (min source.unread.length chunkBytes) =
                  source.unread.take chunkBytes := by
                  rw [Nat.min_comm, ← List.take_eq_take_min]
                have hunread : (source.advance (min source.unread.length chunkBytes)).unread =
                    source.unread.drop chunkBytes := by
                  rw [Source.unread_advance]
                  rcases Nat.le_total source.unread.length chunkBytes with hle | hle
                  · rw [Nat.min_eq_left hle, List.drop_length, List.drop_eq_nil_of_le hle]
                  · rw [Nat.min_eq_right hle]
                rw [htake] at hrest
                have hlength : source.unread.length - min source.unread.length chunkBytes =
                    (source.advance (min source.unread.length chunkBytes)).unread.length := by
                  rw [hunread, List.length_drop]
                  omega
                rw [hlength] at hrest
                obtain ⟨i, rest, hin⟩ := ih (hunread ▸ hcovers.drop) hrest
                rw [hunread] at hin
                exact ⟨i + 1, rest, hin.succ⟩
              · obtain ⟨e, he⟩ := selected_failed fun u => hunsent
                obtain ⟨heq, rfl⟩ := Runs.error_bind hrest he
                cases heq
                exact hnone rfl fun u hu => by cases hu
          · obtain ⟨e, he⟩ := selectedIo_failed hfailed
            obtain ⟨heq, rfl⟩ := Runs.error_bind hsend he
            cases heq
            exact hnone rfl fun u hu => by cases hu

private theorem chunks_append (artifactId : Option PluginArtifactId) (index : Nat) (l l' : List (List UInt8)) :
    chunks artifactId index (l ++ l') = chunks artifactId index l ++ chunks artifactId (index + l.length) l' := by
  induction l generalizing index with
  | nil => rfl
  | cons data rest ih =>
    rw [List.cons_append, chunks, ih, chunks, List.cons_append, List.length_cons, Nat.add_assoc, Nat.add_comm 1]

private theorem received_eq_ok {payload answer : Payload} (h : HostClient.received payload = .ok answer) :
    payload = answer := by
  unfold HostClient.received at h
  split at h
  · cases h
  · exact Except.ok.inj h

/-- A request that is not answered, or not with a payload, falls short of one that is answered with `expected`. -/
private theorem request_bind_runs {α : Type} {payload expected : Payload} {f : Payload → ContextProgram α}
    {q : Program ContextOp ContextOp.Reply (Except SdkError α)}
    (hexpected : HostClient.received expected = .ok expected)
    (h : Runs Carries (source, es) (context.request payload >>= f).run (source', es') q) :
    (∃ answer, Runs Carries (source, es ++ [Exchange.put payload, Exchange.answered answer]) (f answer).run
    (source', es') q) ∨
      (∀ a, q ≠ .pure (.ok a)) ∧ ∃ shown, es' = es ++ shown ∧
        ∀ rest, Short ([Exchange.put payload, Exchange.answered expected] ++ rest) shown := by
  have hstopped : (∀ a, q ≠ .pure (.ok a)) → es' = es ∨ es' = es ++ [Exchange.put payload] →
      (∀ a, q ≠ .pure (.ok a)) ∧ ∃ shown, es' = es ++ shown ∧
        ∀ rest, Short ([Exchange.put payload, Exchange.answered expected] ++ rest) shown := by
    rintro hq (rfl | rfl)
    · exact ⟨hq, [], by simp, fun rest => Or.inl ⟨_, _, rfl⟩⟩
    · exact ⟨hq, _, rfl, fun rest => Or.inl ⟨_, _, rfl⟩⟩
  rw [ActionContext.request, LawfulMonad.bind_assoc] at h
  rcases Runs.op_bind_inv h with ⟨heq, rfl⟩ | ⟨active, m, hactive, hrest⟩
  · cases heq
    exact Or.inr (hstopped (fun a ha => by cases ha) (Or.inl rfl))
  · obtain rfl := hactive.ensureActive_inv
    cases (active : Bool) with
    | false =>
      obtain ⟨heq, rfl⟩ := Runs.error_bind hrest rfl
      cases heq
      exact Or.inr (hstopped (fun a ha => by cases ha) (Or.inl rfl))
    | true =>
      rcases Runs.op_bind_inv (Runs.ok_bind hrest rfl) with ⟨heq, rfl⟩ | ⟨reply, m, hreply, hrest⟩
      · cases heq
        exact Or.inr (hstopped (fun a ha => by cases ha) (Or.inl rfl))
      · rcases hreply.request_inv with ⟨answer, rfl, rfl⟩ | ⟨hfailed, hm⟩
        · cases hreceived : HostClient.received answer with
          | ok payload' =>
            obtain rfl := received_eq_ok hreceived
            exact Or.inl ⟨answer, Runs.ok_bind hrest hreceived⟩
          | error e =>
            obtain ⟨heq, rfl⟩ := Runs.error_bind hrest hreceived
            cases heq
            refine Or.inr ⟨fun a ha => (by cases ha), _, rfl, fun rest =>
              Or.inr ⟨[.put payload], answer, expected, rest, rfl, rfl, ?_⟩⟩
            rintro rfl
            cases hreceived.symm.trans hexpected
        · obtain ⟨e, he⟩ := selected_failed hfailed
          obtain ⟨heq, rfl⟩ := Runs.error_bind hrest he
          rcases hm with rfl | rfl
          · cases heq
            exact Or.inr (hstopped (fun a ha => by cases ha) (Or.inl rfl))
          · cases heq
            exact Or.inr (hstopped (fun a ha => by cases ha) (Or.inr rfl))

/-- The pieces that the bytes of an artifact are sent in. -/
def artifactPieces (maximumChunkBytes : Nat) (bytes : List UInt8) : List (List UInt8) :=
  cut (min maximumChunkBytes artifactIoBufferBytes) bytes

/-- The call has succeeded after the whole exchange, or has fallen short of it. -/
def Outcome {α : Type} (q : Program ContextOp ContextOp.Reply (Except SdkError α))
    (whole shown : List Exchange) : Prop :=
  (∃ a, q = .pure (.ok a)) ∧ shown = whole ∨ (∀ a, q ≠ .pure (.ok a)) ∧ Short whole shown

/-- The end of a transfer, whose start has been accepted. -/
private theorem accepted_runs {q : Program ContextOp ContextOp.Reply (Except SdkError Unit)}
    (hcovers : Covers chunkBytes count source.unread)
    (h : Runs Carries (source, es)
      (do
        context.sendChunks artifactId chunkBytes count 0 source.unread.length
        let complete ← context.request (.artifactComplete ⟨some artifactId⟩)
        if ActionContext.storedBy artifactId complete then pure ()
        else .lift (.error (.protocol "host did not confirm the same artifact ID")) : ContextProgram Unit).run
      (source', es') q) :
    ∃ shown, es' = es ++ shown ∧ Outcome q
    ((chunks (some artifactId) 0 (pieces chunkBytes count source.unread)).map Exchange.put ++
      [Exchange.put (.artifactComplete ⟨some artifactId⟩), Exchange.answered (.artifactStored ⟨some artifactId⟩)])
        shown := by
  rcases Runs.except_bind_inv h with ⟨p', hloop, hp', hstopped⟩ | ⟨_, ⟨m, es₁⟩, hloop, hcomplete⟩
  · obtain ⟨i, rest, hin⟩ := sendChunks_runs hcovers hloop
    refine ⟨_, hin.sent, Or.inr ⟨fun u hu => ?_, ?_⟩⟩
    · obtain ⟨e, he, -⟩ := hstopped _ hu
      cases he
    · rw [← List.take_append_drop i (pieces chunkBytes count source.unread), chunks_append, List.map_append,
        List.append_assoc, List.take_append_drop]
      exact Short.of_append (by simp)
  · obtain ⟨i, rest, hin⟩ := sendChunks_runs hcovers hloop
    have hi : i = count := hin.ended.1 ⟨_, rfl⟩
    have hsent := hin.sent
    rw [hi, List.take_of_length_le (length_pieces count source.unread).le] at hsent
    subst hsent
    have hrequest := @request_bind_runs _ _ _ _ _ _ _ (.artifactStored ⟨some artifactId⟩) _ _ rfl hcomplete
    rcases hrequest with ⟨answer, hstore⟩ | ⟨hq, shown, rfl, hshort⟩
    · by_cases hstored : ActionContext.storedBy artifactId answer = true
      · rw [if_pos hstored] at hstore
        obtain ⟨heq, rfl⟩ := Runs.pure_inv hstore
        cases heq
        obtain rfl := storedBy_eq_true hstored
        exact ⟨_, List.append_assoc .., Or.inl ⟨⟨_, rfl⟩, rfl⟩⟩
      · rw [if_neg hstored] at hstore
        obtain ⟨heq, rfl⟩ := Runs.pure_inv hstore
        cases heq
        refine ⟨_, List.append_assoc .., Or.inr ⟨fun u hu => (by cases hu), ?_⟩⟩
        refine Short.append_left (Or.inr ⟨[_], answer, _, _, rfl, rfl, ?_⟩) _
        rintro rfl
        exact hstored (by simp [ActionContext.storedBy])
    · refine ⟨_, List.append_assoc .., Or.inr ⟨hq, ?_⟩⟩
      exact Short.append_left (hshort []) _

/-- A transfer exchanges its whole stream with the host, or falls short of it. -/
private theorem transfer_runs {q : Program ContextOp ContextOp.Reply (Except SdkError Unit)}
    (hid : descriptor.artifactId = some artifactId) (hsize : source.unread.length = descriptor.sizeBytes)
    (h : Runs Carries (source, []) (context.transfer platform descriptor artifactId).run (source', es') q) :
    Outcome q (wholeExchange context.jobId descriptor
      (artifactPieces context.host.maximumArtifactChunkBytes source.unread)) es' := by
  have hnothing : (∀ u, q ≠ .pure (.ok u)) → es' = [] → Outcome q (wholeExchange context.jobId descriptor
      (artifactPieces context.host.maximumArtifactChunkBytes source.unread)) es' := by
    rintro hq rfl
    exact Or.inr ⟨hq, Or.inl ⟨_, _, rfl⟩⟩
  rcases Runs.op_bind_inv h with ⟨heq, rfl⟩ | ⟨active, m, hactive, hplan⟩
  · cases heq
    exact hnothing (fun u hu => by cases hu) rfl
  · obtain rfl := hactive.ensureActive_inv
    cases (active : Bool) with
    | false =>
      obtain ⟨heq, rfl⟩ := Runs.error_bind hplan rfl
      cases heq
      exact hnothing (fun u hu => by cases hu) rfl
    | true =>
      replace hplan := Runs.ok_bind hplan rfl
      cases hplanned : artifactPlan platform descriptor.sizeBytes context.host.maximumArtifactChunkBytes with
      | error e =>
        obtain ⟨heq, rfl⟩ := Runs.error_bind hplan hplanned
        cases heq
        exact hnothing (fun u hu => by cases hu) rfl
      | ok plan =>
        have hstart := Runs.ok_bind hplan hplanned
        obtain ⟨hmaximum, hbytes, hcount⟩ := artifactPlan_eq_ok hplanned
        have hpos : 0 < plan.chunkBytes := by
          rw [hbytes]
          unfold artifactIoBufferBytes
          omega
        rw [← hsize] at hcount
        have hcovers : Covers plan.chunkBytes plan.chunkCount source.unread :=
          hcount ▸ covers_number hpos source.unread
        have hcut : artifactPieces context.host.maximumArtifactChunkBytes source.unread =
            pieces plan.chunkBytes plan.chunkCount source.unread := by rw [artifactPieces, cut, hcount, hbytes]
        generalize artifactPieces context.host.maximumArtifactChunkBytes source.unread = parts at hcut hnothing ⊢
        have hlength : plan.chunkCount = parts.length := by rw [hcut, length_pieces]
        rw [hlength] at hcut hcovers hstart
        have hrequest := @request_bind_runs _ _ _ _ _ _ _ (.artifactAccepted ⟨descriptor.artifactId⟩) _ _ rfl hstart
        rcases hrequest with ⟨answer, haccept⟩ | ⟨hq, shown, rfl, hshort⟩
        · by_cases haccepted : ActionContext.acceptedBy artifactId answer = true
          · rw [if_pos haccepted, ← hsize] at haccept
            obtain rfl := acceptedBy_eq_true haccepted
            obtain ⟨shown, rfl, ⟨hok, rfl⟩ | ⟨hq, hshort⟩⟩ := accepted_runs hcovers haccept
            · refine Or.inl ⟨hok, ?_⟩
              rw [wholeExchange, hid, ← hcut]
              rfl
            · refine Or.inr ⟨hq, ?_⟩
              rw [wholeExchange, hid]
              rw [← hcut] at hshort
              exact Short.append_left hshort _
          · rw [if_neg haccepted] at haccept
            obtain ⟨heq, rfl⟩ := Runs.pure_inv haccept
            cases heq
            refine Or.inr ⟨fun u hu => (by cases hu), Or.inr ⟨[_], answer, _, _, rfl, rfl, ?_⟩⟩
            rintro rfl
            exact haccepted (by simp [ActionContext.acceptedBy, hid])
        · exact Or.inr ⟨hq, hshort _⟩

/-- What is made of the result is not exchanged. -/
private theorem Outcome.bind_pure {α β : Type} {x : ContextProgram α} {f : α → β} {whole : List Exchange}
    {s t : Source × List Exchange} {q : Program ContextOp ContextOp.Reply (Except SdkError β)}
    (hx : ∀ t p', Runs Carries s x.run t p' → Outcome p' whole t.2)
    (h : Runs Carries s (x >>= fun a => pure (f a)).run t q) : Outcome q whole t.2 := by
  rcases Runs.except_bind_inv h with ⟨p', hp, hp', hstopped⟩ | ⟨a, m, hp, hpure⟩
  · rcases hx t p' hp with ⟨⟨a, ha⟩, -⟩ | ⟨-, hshort⟩
    · exact absurd ha (hp' a)
    · refine Or.inr ⟨fun b hb => ?_, hshort⟩
      obtain ⟨e, he, -⟩ := hstopped _ hb
      cases he
  · obtain ⟨rfl, rfl⟩ := Runs.pure_inv hpure
    rcases hx t _ hp with ⟨-, hwhole⟩ | ⟨hne, -⟩
    · exact Or.inl ⟨⟨_, rfl⟩, hwhole⟩
    · exact absurd rfl (hne a)

/-- Wherever the call is or has stopped, it has exchanged the whole stream and succeeded, or has fallen short of
it. -/
theorem storeArtifact_runs {q : Program ContextOp ContextOp.Reply (Except SdkError Returned)}
    (h : Runs Carries (source, []) ((Operation.storeArtifact descriptor).program platform context).run
    (source', es') q) : Outcome q (wholeExchange context.jobId descriptor
      (artifactPieces context.host.maximumArtifactChunkBytes source.unread)) es' := by
  refine Outcome.bind_pure (fun t p' hp => ?_) h
  generalize hwhole : wholeExchange context.jobId descriptor
    (artifactPieces context.host.maximumArtifactChunkBytes source.unread) = whole
  have hnothing : (∀ a, p' ≠ .pure (.ok a)) → t.2 = [] → Outcome p' whole t.2 := by
    intro hp' ht
    rw [ht, ← hwhole]
    exact Or.inr ⟨hp', Or.inl ⟨_, _, rfl⟩⟩
  have hpending : t = (source, []) → (∀ a, p' ≠ .pure (.ok a)) → Outcome p' whole t.2 := by
    rintro rfl hp'
    exact hnothing hp' rfl
  cases hvalid : validateDescriptor descriptor with
  | error e =>
    rw [ActionContext.storeArtifact_of_invalid hvalid] at hp
    rcases Runs.op_bind_inv hp with ⟨rfl, rfl⟩ | ⟨active, m, hactive, hinvalid⟩
    · exact hpending rfl fun a ha => by cases ha
    · obtain rfl := hactive.ensureActive_inv
      cases (active : Bool) with
      | false =>
        obtain ⟨rfl, rfl⟩ := Runs.error_bind hinvalid rfl
        exact hpending rfl fun a ha => by cases ha
      | true =>
        obtain ⟨rfl, rfl⟩ := Runs.pure_inv (Runs.ok_bind hinvalid rfl)
        exact hpending rfl fun a ha => by cases ha
  | ok artifactId =>
    rw [ActionContext.storeArtifact_of_valid hvalid] at hp
    rcases Runs.op_bind_inv hp with ⟨rfl, rfl⟩ | ⟨active, m, hactive, hsource⟩
    · exact hpending rfl fun a ha => by cases ha
    · obtain rfl := hactive.ensureActive_inv
      cases (active : Bool) with
      | false =>
        obtain ⟨rfl, rfl⟩ := Runs.error_bind hsource rfl
        exact hpending rfl fun a ha => by cases ha
      | true =>
        rcases Runs.except_bind_inv (Runs.ok_bind hsource rfl) with ⟨p₁, hchecked, -, hstopped⟩ | ⟨_, m,
          hchecked, htransfer⟩
        · refine hnothing (fun a ha => ?_) (silent_of_serves validateSource_serves hchecked)
          obtain ⟨e, he, -⟩ := hstopped _ ha
          cases he
        · obtain ⟨hback, hsilent, hsize⟩ := validateSource_ok hchecked
          obtain ⟨m₁, m₂⟩ := m
          simp only at hback hsilent
          subst hback hsilent
          refine Outcome.bind_pure (fun t p' hp => ?_) htransfer
          rw [← hwhole]
          exact transfer_runs (artifactId_of_validateDescriptor hvalid) hsize hp

end Transfers

end PluginSdk
