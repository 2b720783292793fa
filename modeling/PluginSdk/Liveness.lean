import PluginSdk.Error
import PluginSdk.Lib.Potential

/-!
# Parent liveness

The watcher of stdin as it is built for unix, the only platform on which it polls and is joined.

The host keeps the other end of the plugin's stdin open.  A thread watches it: it polls, reads what there is byte by
byte, and reports the end of the input, or the failure of a system call, through a oneshot channel.  The task that
runs the session waits for the report, and stops and joins the thread when it leaves.  The report is faithful
(`Liveness.faithful`), a closed input is reported after a bounded number of steps of the thread
(`Liveness.detects`), and the join does not wait for the host (`Liveness.drop_joins`).
-/

namespace PluginSdk

open Lts

/-- What the watcher asks about the kind of an I/O error. -/
inductive IoErrorKind
  | interrupted
  | wouldBlock
  | other
deriving DecidableEq

structure IoError where
  kind : IoErrorKind
  message : String

/-- The stdin of the process, of which the watcher is the only reader. -/
structure Pipe where
  /-- How many bytes have been written and not yet read. -/
  buffered : Nat
  /-- Nobody has the other end open any more. -/
  hungUp : Bool
  /-- The descriptor cannot be read. -/
  invalid : Bool

/-- `poll` returns at once. -/
def Pipe.Ready (p : Pipe) : Prop := 0 < p.buffered ∨ p.hungUp = true ∨ p.invalid = true

instance (p : Pipe) : Decidable p.Ready := inferInstanceAs (Decidable (_ ∨ _))

/-- The end of the input has been reached. -/
def Pipe.AtEnd (p : Pipe) : Prop := p.buffered = 0 ∧ p.hungUp = true

/-- Where the thread is, in `watch_descriptor` and then in `watch_stdin`. -/
inductive Watcher
  /-- At the head of the loop. -/
  | checking
  | polling
  | rechecking
  | reading
  /-- `watch_descriptor` has returned. -/
  | watched (result : Except IoError Unit)
  | sending (result : Except IoError Unit)
  | exited

/-- The oneshot channel from the thread. -/
inductive Report
  | empty
  | filled (result : Except IoError Unit)
  /-- The thread has gone without a report. -/
  | dropped

/-- Where the task that runs the session is. -/
inductive Owner
  /-- In the `select!`. -/
  | waiting
  /-- One of the two branches of the `select!` is done. -/
  | leaving
  /-- In the drop of the watcher, with the stop flag set. -/
  | joining
  | left

structure Liveness where
  pipe : Pipe
  stop : Bool
  watcher : Watcher
  report : Report
  owner : Owner

namespace Liveness

/-- `ParentLiveness::start`, on the stdin that the host has left to the plugin. -/
def init (pipe : Pipe) : Liveness where
  pipe := pipe
  stop := false
  watcher := .checking
  report := .empty
  owner := .waiting

inductive Polled
  | timeout
  | ready
  | failed (e : IoError)

inductive Read
  | byte
  | eof
  | failed (e : IoError)

inductive Event
  /-- The host writes, or closes its end. -/
  | written
  | hungUp
  | invalidated
  | checked
  | polled (result : Polled)
  | rechecked
  | read (result : Read)
  | tested
  | sent
  /-- The session has ended, or the future of `run` is dropped. -/
  | sessionEnded
  | waited (result : Except SdkError Unit)
  | stopped
  | joined

/-- The event is a step of the thread. -/
def Event.ofWatcher : Event → Bool
  | .checked | .polled _ | .rechecked | .read _ | .tested | .sent => true
  | _ => false

/-- After a `poll`. -/
def afterPoll : Polled → Watcher
  | .timeout => .checking
  | .ready => .rechecking
  | .failed e => if e.kind = .interrupted then .checking else .watched (.error e)

/-- After a `read`. -/
def afterRead : Read → Watcher
  | .byte => .checking
  | .eof => .watched (.ok ())
  | .failed e => if e.kind = .interrupted ∨ e.kind = .wouldBlock then .checking else .watched (.error e)

/-- `ParentLiveness::wait`, on what has become of the channel. -/
def wait : Report → Option (Except SdkError Unit)
  | .empty => none
  | .filled (.ok ()) => some (.ok ())
  | .filled (.error e) => some (.error (.runtime "watch parent-liveness pipe" e.message))
  | .dropped => some (.error (.runtime "wait for parent-liveness watcher" "channel closed"))

/-- The steps of the thread. -/
inductive WatcherStep : Liveness → Event → Liveness → Prop
  | check {s : Liveness} : s.watcher = .checking →
      WatcherStep s .checked { s with watcher := if s.stop then .watched (.ok ()) else .polling }
  | timeout {s : Liveness} : s.watcher = .polling → ¬ s.pipe.Ready →
      WatcherStep s (.polled .timeout) { s with watcher := afterPoll .timeout }
  | ready {s : Liveness} : s.watcher = .polling → s.pipe.Ready →
      WatcherStep s (.polled .ready) { s with watcher := afterPoll .ready }
  | pollFailed {s : Liveness} {e : IoError} : s.watcher = .polling →
      WatcherStep s (.polled (.failed e)) { s with watcher := afterPoll (.failed e) }
  | recheck {s : Liveness} : s.watcher = .rechecking →
      WatcherStep s .rechecked { s with watcher := if s.stop then .watched (.ok ()) else .reading }
  | byte {s : Liveness} : s.watcher = .reading → 0 < s.pipe.buffered →
      WatcherStep s (.read .byte)
        { s with pipe := { s.pipe with buffered := s.pipe.buffered - 1 }, watcher := afterRead .byte }
  | eof {s : Liveness} : s.watcher = .reading → s.pipe.AtEnd →
      WatcherStep s (.read .eof) { s with watcher := afterRead .eof }
  | readFailed {s : Liveness} {e : IoError} : s.watcher = .reading →
      WatcherStep s (.read (.failed e)) { s with watcher := afterRead (.failed e) }
  | test {s : Liveness} {result : Except IoError Unit} : s.watcher = .watched result →
      WatcherStep s .tested
        (if s.stop then { s with watcher := .exited, report := .dropped } else { s with watcher := .sending result })
  | send {s : Liveness} {result : Except IoError Unit} : s.watcher = .sending result →
      WatcherStep s .sent { s with watcher := .exited, report := .filled result }

/-- The steps of the host and of the task that runs the session. -/
inductive OuterStep : Liveness → Event → Liveness → Prop
  | write {s : Liveness} {n : Nat} : s.pipe.hungUp = false →
      OuterStep s .written { s with pipe := { s.pipe with buffered := s.pipe.buffered + n } }
  | hangUp {s : Liveness} : OuterStep s .hungUp { s with pipe := { s.pipe with hungUp := true } }
  | invalidate {s : Liveness} : OuterStep s .invalidated { s with pipe := { s.pipe with invalid := true } }
  | sessionEnd {s : Liveness} : s.owner = .waiting → OuterStep s .sessionEnded { s with owner := .leaving }
  | wait {s : Liveness} {result : Except SdkError Unit} : s.owner = .waiting → Liveness.wait s.report = some result →
      OuterStep s (.waited result) { s with owner := .leaving }
  | stop {s : Liveness} : s.owner = .leaving → OuterStep s .stopped { s with stop := true, owner := .joining }
  | join {s : Liveness} : s.owner = .joining → s.watcher = .exited → OuterStep s .joined { s with owner := .left }

inductive Step : Liveness → Event → Liveness → Prop
  | watcher {s s' : Liveness} {e : Event} : WatcherStep s e s' → Step s e s'
  | outer {s s' : Liveness} {e : Event} : OuterStep s e s' → Step s e s'

variable {s s' u : Liveness} {e : Event} {h w : List Event} {pipe : Pipe} {result : Except SdkError Unit}

/-! ### What the thread reports -/

/-- A system call has failed in a way that the watcher does not retry. -/
def Failed (h : List Event) (io : IoError) : Prop :=
  .polled (.failed io) ∈ h ∧ io.kind ≠ .interrupted ∨ .read (.failed io) ∈ h ∧ io.kind = .other

/-- What a result of `watch_descriptor` says, if the watcher was not stopped. -/
def Justified (h : List Event) (s : Liveness) : Except IoError Unit → Prop
  | .ok () => s.pipe.AtEnd
  | .error io => Failed h io

structure Consistent (h : List Event) (s : Liveness) : Prop where
  stop : s.stop = true ↔ s.owner = .joining ∨ s.owner = .left
  ready : s.watcher = .rechecking ∨ s.watcher = .reading → s.pipe.Ready
  watched : ∀ r, s.watcher = .watched r → s.stop = false → Justified h s r
  sending : ∀ r, s.watcher = .sending r → Justified h s r
  filled : ∀ r, s.report = .filled r → Justified h s r
  dropped : s.report = .dropped → s.stop = true
  exited : s.watcher = .exited ↔ s.report ≠ .empty

private theorem Failed.mono {io : IoError} (hf : Failed h io) (e : Event) : Failed (h ++ [e]) io :=
  hf.imp (fun hp => ⟨List.mem_append_left _ hp.1, hp.2⟩) fun hp => ⟨List.mem_append_left _ hp.1, hp.2⟩

/-- The end of the input stays reached. -/
private theorem Step.atEnd (hs : Step s e s') (hend : s.pipe.AtEnd) : s'.pipe.AtEnd := by
  obtain ⟨hempty, hclosed⟩ := hend
  cases hs with
  | watcher hs =>
    cases hs with
    | byte _ hbyte => omega
    | test => split <;> exact ⟨hempty, hclosed⟩
    | _ => exact ⟨hempty, hclosed⟩
  | outer hs =>
    cases hs with
    | write hopen =>
      rw [hclosed] at hopen
      cases hopen
    | hangUp => exact ⟨hempty, rfl⟩
    | _ => exact ⟨hempty, hclosed⟩

private theorem Justified.step {r : Except IoError Unit} (hj : Justified h s r) (hs : Step s e s') :
    Justified (h ++ [e]) s' r := by
  cases r with
  | ok => exact hs.atEnd hj
  | error io => exact Failed.mono hj e

/-- What the outer steps leave alone. -/
private theorem OuterStep.keeps (hs : OuterStep s e s') :
    s'.watcher = s.watcher ∧ s'.report = s.report ∧ (s.pipe.Ready → s'.pipe.Ready) ∧
      (s.stop = true → s'.stop = true) := by
  cases hs with
  | write =>
    refine ⟨rfl, rfl, fun h => ?_, id⟩
    rcases h with h | h
    · exact Or.inl (Nat.add_pos_left h _)
    · exact Or.inr h
  | hangUp => exact ⟨rfl, rfl, fun _ => Or.inr (Or.inl rfl), id⟩
  | invalidate => exact ⟨rfl, rfl, fun _ => Or.inr (Or.inr rfl), id⟩
  | stop => exact ⟨rfl, rfl, id, fun _ => rfl⟩
  | _ => exact ⟨rfl, rfl, id, id⟩

/-- A step of the thread that neither reports nor ends it. -/
private theorem Consistent.move (hc : Consistent h s) (hs : Step s e s') (hstop : s'.stop = s.stop)
    (howner : s'.owner = s.owner) (hreport : s'.report = s.report) (hbefore : s.watcher ≠ .exited)
    (hafter : s'.watcher ≠ .exited) (hready : s'.watcher = .rechecking ∨ s'.watcher = .reading → s'.pipe.Ready)
    (hwatched : ∀ r, s'.watcher = .watched r → s'.stop = false → Justified (h ++ [e]) s' r)
    (hsending : ∀ r, s'.watcher = .sending r → Justified (h ++ [e]) s' r) : Consistent (h ++ [e]) s' where
  stop := by
    rw [hstop, howner]
    exact hc.stop
  ready := hready
  watched := hwatched
  sending := hsending
  filled r hr := (hc.filled r (hreport ▸ hr)).step hs
  dropped hr := hstop ▸ hc.dropped (hreport ▸ hr)
  exited := by
    rw [hreport, ← hc.exited]
    exact iff_of_false hafter hbefore

private theorem WatcherStep.consistent (hs : WatcherStep s e s') (hc : Consistent h s) :
    Consistent (h ++ [e]) s' := by
  have hstep : Step s e s' := .watcher hs
  cases hs with
  | check hat =>
    refine hc.move hstep rfl rfl rfl (by simp [hat]) ?_ ?_ ?_ ?_ <;> dsimp only <;> split <;> simp_all
  | timeout hat => exact hc.move hstep rfl rfl rfl (by simp [hat]) nofun nofun nofun nofun
  | ready hat hready => exact hc.move hstep rfl rfl rfl (by simp [hat]) nofun (fun _ => hready) nofun nofun
  | @pollFailed io hat =>
    by_cases hkind : io.kind = .interrupted
    · have hretry : afterPoll (.failed io) = .checking := if_pos hkind
      refine hc.move hstep rfl rfl rfl ?_ ?_ ?_ ?_ ?_ <;> simp [hat, hretry]
    · have hfail : afterPoll (.failed io) = .watched (.error io) := if_neg hkind
      refine hc.move hstep rfl rfl rfl ?_ ?_ ?_ ?_ ?_ <;> simp [hat, hfail, Justified, Failed, hkind]
  | recheck hat =>
    have hready := hc.ready (Or.inl hat)
    refine hc.move hstep rfl rfl rfl (by simp [hat]) ?_ (fun _ => hready) ?_ ?_ <;> dsimp only <;> split <;> simp_all
  | byte hat => exact hc.move hstep rfl rfl rfl (by simp [hat]) nofun nofun nofun nofun
  | eof hat hend =>
    refine hc.move hstep rfl rfl rfl (by simp [hat]) nofun nofun ?_ nofun
    rintro r hr -
    cases hr
    exact hend
  | @readFailed io hat =>
    cases hkind : io.kind with
    | interrupted | wouldBlock =>
      have hretry : afterRead (.failed io) = .checking := if_pos (by simp [hkind])
      refine hc.move hstep rfl rfl rfl ?_ ?_ ?_ ?_ ?_ <;> simp [hat, hretry]
    | other =>
      have hfail : afterRead (.failed io) = .watched (.error io) := if_neg (by simp [hkind])
      refine hc.move hstep rfl rfl rfl ?_ ?_ ?_ ?_ ?_ <;> simp [hat, hfail, Justified, Failed, hkind]
  | @test r hat =>
    by_cases hstop : s.stop
    · rw [if_pos hstop]
      exact ⟨hc.stop, nofun, nofun, nofun, nofun, fun _ => hstop, by simp⟩
    · rw [if_neg hstop] at hstep ⊢
      refine hc.move hstep rfl rfl rfl (by simp [hat]) nofun nofun nofun fun r' hr' => ?_
      cases hr'
      exact (hc.watched r hat (Bool.not_eq_true _ ▸ hstop)).step hstep
  | @send r hat =>
    refine ⟨hc.stop, nofun, nofun, nofun, fun r' hr' => ?_, nofun, by simp⟩
    cases hr'
    exact (hc.sending r hat).step hstep

private theorem OuterStep.consistent (hs : OuterStep s e s') (hc : Consistent h s) : Consistent (h ++ [e]) s' := by
  have hstep : Step s e s' := .outer hs
  obtain ⟨hwatcher, hreport, hready, hstop⟩ := hs.keeps
  refine ⟨?_, fun hat => hready (hc.ready (hwatcher ▸ hat)), fun r hat hrun => ?_,
    fun r hat => (hc.sending r (hwatcher ▸ hat)).step hstep, fun r hr => (hc.filled r (hreport ▸ hr)).step hstep,
    fun hr => hstop (hc.dropped (hreport ▸ hr)), ?_⟩
  · have hiff := hc.stop
    cases hs <;> simp_all
  · refine (hc.watched r (hwatcher ▸ hat) ?_).step hstep
    rw [Bool.eq_false_iff] at hrun ⊢
    exact fun h => hrun (hstop h)
  · rw [hwatcher, hreport]
    exact hc.exited

private theorem Step.consistent (hs : Step s e s') (hc : Consistent h s) : Consistent (h ++ [e]) s' := by
  cases hs with
  | watcher hs => exact hs.consistent hc
  | outer hs => exact hs.consistent hc

theorem consistent (hr : Steps Step (init pipe) h s) : Consistent h s := by
  refine Steps.history (I := Consistent) ?_ (fun _ _ _ _ _ hs hc => hs.consistent hc) hr
  constructor <;> simp [init]

/-- What a result of `wait` says. -/
def Explained (h : List Event) (s : Liveness) : Except SdkError Unit → Prop
  | .ok () => s.pipe.AtEnd
  | .error e => ∃ io, Failed h io ∧ e = .runtime "watch parent-liveness pipe" io.message

private theorem Explained.step (hx : Explained h s result) (hs : Step s e s') : Explained (h ++ [e]) s' result := by
  cases result with
  | ok => exact hs.atEnd hx
  | error _ =>
    obtain ⟨io, hf, he⟩ := hx
    exact ⟨io, hf.mono _, he⟩

/-- While the task waits, the report is that of a watcher that was not stopped. -/
theorem Consistent.explained (hc : Consistent h s) (howner : s.owner = .waiting) (hw : wait s.report = some result) :
    Explained h s result := by
  cases hreport : s.report with
  | empty =>
    rw [hreport] at hw
    cases hw
  | dropped => simpa [howner] using hc.stop.1 (hc.dropped hreport)
  | filled r =>
    have hj := hc.filled r hreport
    rw [hreport] at hw
    cases r with
    | ok =>
      cases hw
      exact hj
    | error io =>
      cases hw
      exact ⟨io, hj, rfl⟩

/-- What the task is told is true, whatever it does then. -/
theorem explained (hr : Steps Step (init pipe) h s) (hw : .waited result ∈ h) : Explained h s result := by
  refine Steps.history (I := fun h s => .waited result ∈ h → Explained h s result) (by simp)
    (fun h s e s' hr hs ih hmem => ?_) hr hw
  rcases List.mem_append.1 hmem with hmem | hmem
  · exact (ih hmem).step hs
  · obtain rfl := List.mem_singleton.1 hmem
    refine Explained.step ?_ hs
    cases hs with
    | watcher hs => cases hs
    | outer hs =>
      cases hs with
      | wait howner hreport => exact (consistent hr).explained howner hreport

/-- A host that closes its end of the pipe while the thread polls. -/
def samplePipe : Pipe := ⟨0, false, false⟩

def sampleIdle : List Event := [.checked, .polled .timeout, .hungUp]

def sampleWatched : List Event := [.checked, .polled .ready, .rechecked, .read .eof, .tested, .sent]

def sampleClosed : Liveness := ⟨⟨0, true, false⟩, false, .checking, .empty, .waiting⟩

def sampleReported : Liveness := ⟨⟨0, true, false⟩, false, .exited, .filled (.ok ()), .waiting⟩

theorem sampleIdle_steps : Steps Step (init samplePipe) sampleIdle sampleClosed :=
  .cons (.watcher (.check rfl)) (.cons (.watcher (.timeout rfl (by decide))) (.single (.outer .hangUp)))

theorem sampleWatched_steps : Steps Step sampleClosed sampleWatched sampleReported := by
  refine .cons (.watcher (.check rfl))
    (.cons (.watcher (.ready rfl (by decide))) (.cons (.watcher (.recheck rfl)) ?_))
  exact .cons (.watcher (.eof rfl ⟨rfl, rfl⟩)) (.cons (.watcher (.test rfl)) (.single (.watcher (.send rfl))))

/-! ### How long it takes -/

/-- The steps of the thread after it has been stopped. -/
def remaining (s : Liveness) : Nat :=
  match s.watcher with
  | .polling | .reading => 3
  | .checking | .rechecking => 2
  | .watched _ | .sending _ => 1
  | .exited => 0

/-- The steps of the thread until it has read all that is there, if nothing fails. -/
def distance (s : Liveness) : Nat :=
  match s.watcher with
  | .checking => 4 * s.pipe.buffered + 6
  | .polling => 4 * s.pipe.buffered + 5
  | .rechecking => 4 * s.pipe.buffered + 4
  | .reading => 4 * s.pipe.buffered + 3
  | .watched _ => 2
  | .sending _ => 1
  | .exited => 0

def Event.steps (e : Event) : Nat := if e.ofWatcher then 1 else 0

/-- A failed system call sends the watcher back to the head of its loop. -/
def Event.detour : Event → Nat
  | .polled (.failed _) | .read (.failed _) => 4
  | _ => 0

private theorem WatcherStep.steps (hs : WatcherStep s e s') : e.steps = 1 := by
  cases hs <;> rfl

private theorem WatcherStep.remaining (hs : WatcherStep s e s') (hstop : s.stop = true) :
    s'.stop = true ∧ s'.remaining + 1 ≤ s.remaining := by
  cases hs with
  | check hat | recheck hat | timeout hat | ready hat | byte hat | eof hat | send hat =>
    simp [Liveness.remaining, afterPoll, afterRead, hat, hstop]
  | @pollFailed io hat =>
    by_cases hkind : io.kind = .interrupted <;> simp [Liveness.remaining, afterPoll, hat, hstop, hkind]
  | @readFailed io hat =>
    by_cases hkind : io.kind = .interrupted ∨ io.kind = .wouldBlock <;>
      simp [Liveness.remaining, afterRead, hat, hstop, hkind]
  | test hat =>
    rw [if_pos hstop]
    simp [Liveness.remaining, hat, hstop]

private theorem WatcherStep.distance (hs : WatcherStep s e s') (hclosed : s.pipe.hungUp = true) :
    s'.pipe.hungUp = true ∧ s'.distance + e.steps ≤ s.distance + e.detour := by
  cases hs with
  | check hat | recheck hat =>
    refine ⟨hclosed, ?_⟩
    cases hstop : s.stop <;> simp [Liveness.distance, Event.steps, Event.ofWatcher, Event.detour, hat]
  | timeout hat hidle => exact absurd (Or.inr (Or.inl hclosed)) hidle
  | ready hat | eof hat | send hat =>
    refine ⟨hclosed, ?_⟩
    simp [Liveness.distance, Event.steps, Event.ofWatcher, Event.detour, afterPoll, afterRead, hat]
  | byte hat hbyte =>
    refine ⟨hclosed, ?_⟩
    simp only [Liveness.distance, Event.steps, Event.ofWatcher, Event.detour, afterRead, hat, if_pos]
    omega
  | @pollFailed io hat =>
    refine ⟨hclosed, ?_⟩
    by_cases hkind : io.kind = .interrupted <;>
      simp [Liveness.distance, Event.steps, Event.ofWatcher, Event.detour, afterPoll, hat, hkind]
  | @readFailed io hat =>
    refine ⟨hclosed, ?_⟩
    by_cases hkind : io.kind = .interrupted ∨ io.kind = .wouldBlock <;>
      simp [Liveness.distance, Event.steps, Event.ofWatcher, Event.detour, afterRead, hat, hkind]
  | test hat =>
    cases hstop : s.stop <;>
      simp [Liveness.distance, Event.steps, Event.ofWatcher, Event.detour, hat, hclosed]

/-- A step of the thread in which no system call fails, except a read from an invalid descriptor. -/
def SureStep (s : Liveness) (e : Event) (s' : Liveness) : Prop :=
  WatcherStep s e s' ∧ (∀ io, e ≠ .polled (.failed io)) ∧ ∀ io, e = .read (.failed io) → s.pipe.invalid = true

/-- The thread is never blocked: whatever the host does it can make a step, and no system call has to fail for it. -/
theorem Consistent.sure (hc : Consistent h s) (hrun : s.watcher ≠ .exited) : ∃ e s', SureStep s e s' := by
  cases hat : s.watcher with
  | checking => exact ⟨_, _, .check hat, nofun, nofun⟩
  | polling =>
    by_cases hready : s.pipe.Ready
    · exact ⟨_, _, .ready hat hready, nofun, nofun⟩
    · exact ⟨_, _, .timeout hat hready, nofun, nofun⟩
  | rechecking => exact ⟨_, _, .recheck hat, nofun, nofun⟩
  | reading =>
    rcases Nat.eq_zero_or_pos s.pipe.buffered with hempty | hbyte
    · rcases hc.ready (Or.inr hat) with hbyte | hclosed | hinvalid
      · omega
      · exact ⟨_, _, .eof hat ⟨hempty, hclosed⟩, nofun, nofun⟩
      · exact ⟨_, _, .readFailed (e := ⟨.other, "bad file descriptor"⟩) hat, nofun, fun _ _ => hinvalid⟩
    · exact ⟨_, _, .byte hat hbyte, nofun, nofun⟩
  | watched r => exact ⟨_, _, .test hat, nofun, nofun⟩
  | sending r => exact ⟨_, _, .send hat, nofun, nofun⟩
  | exited => exact absurd hat hrun

private theorem Consistent.progress (hc : Consistent h s) (hrun : s.watcher ≠ .exited) :
    ∃ e s', WatcherStep s e s' ∧ (e.detour = 0 ∨ s.pipe.invalid = true) := by
  obtain ⟨e, s', hstep, hpoll, hread⟩ := hc.sure hrun
  refine ⟨e, s', hstep, ?_⟩
  cases hstep with
  | pollFailed => exact absurd rfl (hpoll _)
  | readFailed => exact Or.inr (hread _ rfl)
  | _ => exact Or.inl rfl

/-- The watcher reports the end of the input only when nothing is left to be read and nobody can write any more, and
a failure only when a system call has failed in a way that is not retried; the task never finds it gone without a
report.  And it never blocks in a read. -/
theorem faithful (hr : Steps Step (init pipe) h s) :
    (∀ result, .waited result ∈ h → Explained h s result) ∧
      (s.watcher ≠ .exited → ∃ e s', WatcherStep s e s' ∧ (e.detour = 0 ∨ s.pipe.invalid = true)) :=
  ⟨fun _ hw => explained hr hw, (consistent hr).progress⟩

theorem faithful_sampleWatched : ∃ s, Steps Step (init samplePipe)
    (sampleIdle ++ sampleWatched ++ [.waited (.ok ())]) s ∧ s.pipe.AtEnd := by
  have hr := (sampleIdle_steps.trans sampleWatched_steps).snoc (.outer (.wait rfl rfl))
  have hend : Explained _ _ (.ok ()) := (faithful hr).1 _ (by simp)
  exact ⟨_, hr, hend⟩

/-- What the outer steps do to the thread that has been stopped, and to the one whose input is closed. -/
private theorem OuterStep.distance (hs : OuterStep s e s') :
    e.steps = 0 ∧ e.detour = 0 ∧ s'.remaining = s.remaining ∧
      (s.pipe.hungUp = true → s'.pipe.hungUp = true ∧ s'.distance = s.distance) := by
  cases hs with
  | write hopen =>
    refine ⟨rfl, rfl, rfl, fun hclosed => ?_⟩
    rw [hclosed] at hopen
    cases hopen
  | hangUp => exact ⟨rfl, rfl, rfl, fun _ => ⟨rfl, rfl⟩⟩
  | _ => exact ⟨rfl, rfl, rfl, fun hclosed => ⟨hclosed, rfl⟩⟩

theorem WatcherStep.owner (hs : WatcherStep s e s') : s'.owner = s.owner := by
  cases hs with
  | test => split <;> rfl
  | _ => rfl

private theorem remaining_le (s : Liveness) : s.remaining ≤ 3 := by
  unfold remaining
  split <;> omega

private theorem distance_le (s : Liveness) : s.distance ≤ 4 * s.pipe.buffered + 6 := by
  unfold distance
  split <;> omega

/-- The flag stays set, and each step of the thread lowers what remains of it. -/
private theorem remaining_spent (hstop : s.stop = true) (hw : Steps Step s w u) :
    u.stop = true ∧ u.remaining + (w.map Event.steps).sum ≤ s.remaining := by
  have hstep : ∀ s e s', s.stop = true → Step s e s' → s'.stop = true ∧ s'.remaining + e.steps ≤ s.remaining := by
    rintro s e s' hstop (hs | hs)
    · obtain ⟨hstop', hlt⟩ := hs.remaining hstop
      have hone := hs.steps
      exact ⟨hstop', by omega⟩
    · obtain ⟨hsteps, -, hsame, -⟩ := hs.distance
      exact ⟨hs.keeps.2.2.2 hstop, by omega⟩
  refine ⟨hw.invariant (fun s e s' hs hstop => (hstep s e s' hstop hs).1) hstop, ?_⟩
  exact Steps.spend (I := fun s => s.stop = true) (m := remaining) (c := Event.steps) hstep hstop hw

private theorem exited_of_remaining (hzero : s.remaining = 0) : s.watcher = .exited := by
  unfold remaining at hzero
  cases hat : s.watcher <;> simp_all

/-- The drop of the watcher returns.  Once the stop flag is set the thread makes at most three more steps, whatever
the host does, and has exited after them; until then it can make one without a system call that fails, and
afterwards it is joined. -/
theorem drop_joins (hr : Steps Step (init pipe) h s) (hjoining : s.owner = .joining) (hw : Steps Step s w u) :
    (w.map Event.steps).sum ≤ 3 ∧ ((w.map Event.steps).sum = 3 → u.watcher = .exited) ∧
      (u.owner = .left ∨ OuterStep u .joined { u with owner := .left } ∨ ∃ e u', SureStep u e u') ∧
      ∃ w' t, Steps SureStep u w' t ∧ (t.owner = .left ∨ OuterStep t .joined { t with owner := .left }) := by
  obtain ⟨hstop, hle⟩ := remaining_spent ((consistent hr).stop.2 (Or.inl hjoining)) hw
  have hbound := s.remaining_le
  have hc : Consistent (h ++ w) u := consistent (hr.trans hw)
  have howner : u.owner = .joining ∨ u.owner = .left := hc.stop.1 hstop
  have hend : ∀ t : Liveness, t.owner = u.owner → t.watcher = .exited →
      t.owner = .left ∨ OuterStep t .joined { t with owner := .left } := by
    intro t ht hexited
    rcases howner with hjoin | hleft
    · exact Or.inr (.join (ht.trans hjoin) hexited)
    · exact Or.inl (ht.trans hleft)
  refine ⟨by omega, fun hthree => exited_of_remaining (by omega), ?_, ?_⟩
  · by_cases hexited : u.watcher = .exited
    · exact (hend u rfl hexited).imp_right Or.inl
    · exact Or.inr (Or.inr (hc.sure hexited))
  · have hgoal := Steps.exists_goal (R := SureStep) (P := fun t => t.watcher = .exited) (m := remaining)
      (I := fun t => t.stop = true ∧ t.owner = u.owner ∧ ∃ h, Consistent h t) (fun t ht => ?_) ⟨hstop, rfl, _, hc⟩
    · obtain ⟨w', t, hw', ⟨-, ht, -⟩, hexited, -⟩ := hgoal
      exact ⟨w', t, hw', hend t ht hexited⟩
    · obtain ⟨hstop, ht, h, hc⟩ := ht
      by_cases hexited : t.watcher = .exited
      · exact Or.inl hexited
      · obtain ⟨e, t', hstep⟩ := hc.sure hexited
        obtain ⟨hstop', hlt⟩ := hstep.1.remaining hstop
        exact Or.inr ⟨e, t', hstep, ⟨hstop', hstep.1.owner.trans ht, _, hstep.1.consistent hc⟩, hlt⟩

/-- The session ends while the thread polls, and the thread is stopped. -/
def sampleStopped : Liveness := ⟨samplePipe, true, .polling, .empty, .joining⟩

def sampleLeft : Liveness := ⟨samplePipe, true, .exited, .dropped, .joining⟩

theorem drop_joins_sampleStopped : ∃ h w, Steps Step (init samplePipe) h sampleStopped ∧
    Steps Step sampleStopped w sampleLeft ∧ (w.map Event.steps).sum ≤ 3 ∧ sampleLeft.watcher = .exited ∧
    ∃ w t, Steps SureStep sampleStopped w t ∧ (t.owner = .left ∨ OuterStep t .joined { t with owner := .left }) := by
  have hr : Steps Step (init samplePipe) [.checked, .sessionEnded, .stopped] sampleStopped :=
    .cons (.watcher (.check rfl)) (.cons (.outer (.sessionEnd rfl)) (.single (.outer (.stop rfl))))
  have hw : Steps Step sampleStopped [.polled .timeout, .checked, .tested] sampleLeft :=
    .cons (.watcher (.timeout rfl (by decide))) (.cons (.watcher (.check rfl)) (.single (.watcher (.test rfl))))
  obtain ⟨hle, hexited, -⟩ := drop_joins hr rfl hw
  obtain ⟨-, -, -, hjoin⟩ := drop_joins hr rfl .nil
  exact ⟨_, _, hr, hw, hle, hexited rfl, hjoin⟩

/-- Once nobody can write any more, a thread that has made enough steps has exited. -/
theorem exited_of_steps (hclosed : s.pipe.hungUp = true) (hw : Steps Step s w u)
    (hmany : 4 * s.pipe.buffered + 6 + (w.map Event.detour).sum ≤ (w.map Event.steps).sum) : u.watcher = .exited := by
  have hle := Steps.potential (I := fun s => s.pipe.hungUp = true) (m := distance) (c := Event.steps)
    (g := Event.detour) (fun s e s' hclosed hs => ?_) hclosed hw
  · -- the thread has spent its distance and all detours
    have hzero : u.distance = 0 := by
      have := s.distance_le
      omega
    unfold distance at hzero
    cases hat : u.watcher <;> simp_all
  · cases hs with
    | watcher hs => exact hs.distance hclosed
    | outer hs =>
      obtain ⟨hsteps, -, -, hsame⟩ := hs.distance
      obtain ⟨hclosed', heq⟩ := hsame hclosed
      exact ⟨hclosed', by omega⟩

/-- A thread that has exited without having been stopped has left its report. -/
theorem Consistent.report (hc : Consistent h s) (hexited : s.watcher = .exited) (hrun : s.stop = false) :
    ∃ r, s.report = .filled r ∧ Justified h s r := by
  cases hreport : s.report with
  | empty => exact absurd hreport (hc.exited.1 hexited)
  | dropped =>
    have hstop := hc.dropped hreport
    rw [hrun] at hstop
    cases hstop
  | filled r => exact ⟨r, rfl, hc.filled r hreport⟩

/-- The end of the input is reported.  Once nobody can write any more, the thread needs at most four steps for each
byte that is left, four for each system call that fails, and six to report; if it was not stopped until then the
report is there. -/
theorem detects (hr : Steps Step (init pipe) h s) (hclosed : s.pipe.hungUp = true) (hw : Steps Step s w u)
    (hmany : 4 * s.pipe.buffered + 6 + (w.map Event.detour).sum ≤ (w.map Event.steps).sum) (hrun : u.stop = false) :
    ∃ r, u.report = .filled r ∧ Justified (h ++ w) u r :=
  (consistent (hr.trans hw)).report (exited_of_steps hclosed hw hmany) hrun

theorem detects_sampleWatched : ∃ r, sampleReported.report = .filled r ∧
    Justified (sampleIdle ++ sampleWatched) sampleReported r :=
  detects sampleIdle_steps rfl sampleWatched_steps (by decide) rfl

end Liveness

end PluginSdk
