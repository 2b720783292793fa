import PluginSdk.Gate
import PluginSdk.Liveness
import PluginSdk.Shutdown
import PluginSdk.Lib.Refinement

/-!
# The process of a plugin

`session::run` on unix, from its `select!` on: the session and the watcher of stdin, whichever is done first.  The
process ends well only if the host has closed its end of stdin, or if it has shut the session down as the last thing
it sent and every job was settled by then (`Runtime.run_outcome`).  A host that is gone ends the process even if the
session is stuck (`Runtime.orphaned`).
-/

namespace PluginSdk

open Lts

/-- `run_session`. -/
inductive SessionRun (plugin : Plugin)
  | connecting
  /-- Connected to the endpoint; the stream is being opened. -/
  | opening
  | connected (c : Connection plugin)
  | ended (result : Except SdkError Unit)

/-- How `wait_for_host_close` ends without a message. -/
inductive HostClose
  | timeout
  | closed
  | failed

inductive SessionEvent
  | connected
  | opened
  | failed (e : SdkError)
  | session (e : ServeEvent)
  | closed (how : HostClose)

/-- The error of a shutdown deadline that is no system time. -/
def invalidDeadline (source : String) : SdkError := .protocol ("invalid shutdown deadline: " ++ source)

namespace SessionRun

variable {plugin : Plugin}

/-- Nothing is received any more after a shutdown whose deadline is no system time. -/
def Waits (systemTime : Timestamp → Except String Unit) : Connection plugin → Prop
  | .serving s => ∀ deadline, s.loop = .returned (.ok deadline) → systemTime deadline = .ok ()
  | _ => True

/-- `systemTime` is the conversion of a timestamp to a time of the operating system. -/
inductive Step (systemTime : Timestamp → Except String Unit) : SessionRun plugin → SessionEvent →
  SessionRun plugin → Prop
  | connect : Step systemTime .connecting .connected .opening
  | connectFailed {source : String} :
      Step systemTime .connecting (.failed (.runtime "connect to oll plugin endpoint" source))
      (.ended (.error (.runtime "connect to oll plugin endpoint" source)))
  | open : Step systemTime .opening .opened (.connected (.opening false))
  | openFailed {source : String} : Step systemTime .opening (.failed (.runtime "open plugin runtime stream" source))
      (.ended (.error (.runtime "open plugin runtime stream" source)))
  | step {c c' : Connection plugin} {e : ServeEvent} : Waits systemTime c → Connection.Step c e c' →
      Step systemTime (.connected c) (.session e) (.connected c')
  | fail {e : SdkError} : Step systemTime (.connected (.finished (.error e))) (.failed e) (.ended (.error e))
  | serveFailed {s : Serve} {e : SdkError} : s.loop = .returned (.error e) →
      Step systemTime (.connected (.serving s)) (.failed e) (.ended (.error e))
  | hostClosed {s : Serve} {deadline : Timestamp} {how : HostClose} : s.loop = .returned (.ok deadline) →
      systemTime deadline = .ok () → Step systemTime (.connected (.serving s)) (.closed how) (.ended (.ok ()))
  | deadlineFailed {s : Serve} {deadline : Timestamp} {source : String} : s.loop = .returned (.ok deadline) →
      systemTime deadline = .error source →
      Step systemTime (.connected (.serving s)) (.failed (invalidDeadline source))
      (.ended (.error (invalidDeadline source)))

end SessionRun

structure Runtime (plugin : Plugin) where
  session : SessionRun plugin
  liveness : Liveness
  /-- What the `select!` has come to. -/
  result : Option (Except SdkError Unit)

inductive RuntimeEvent
  | session (e : SessionEvent)
  | liveness (e : Liveness.Event)
  | ended (result : Except SdkError Unit)
  | waited (result : Except SdkError Unit)

namespace Runtime

variable {plugin : Plugin} {systemTime : Timestamp → Except String Unit} {pipe : Pipe} {x x' : Runtime plugin}
  {e : RuntimeEvent} {h : List RuntimeEvent}

def init (plugin : Plugin) (pipe : Pipe) : Runtime plugin where
  session := .connecting
  liveness := .init pipe
  result := none

inductive Step (systemTime : Timestamp → Except String Unit) : Runtime plugin → RuntimeEvent → Runtime plugin → Prop
  /-- The session makes steps as long as the `select!` polls it. -/
  | session {x : Runtime plugin} {e : SessionEvent} {session : SessionRun plugin} : x.result = none →
      SessionRun.Step systemTime x.session e session → Step systemTime x (.session e) { x with session }
  | liveness {x : Runtime plugin} {e : Liveness.Event} {liveness : Liveness} : Liveness.Step x.liveness e liveness →
      e ≠ .sessionEnded → (∀ result, e ≠ .waited result) → Step systemTime x (.liveness e) { x with liveness }
  | ended {x : Runtime plugin} {result : Except SdkError Unit} {liveness : Liveness} : x.session = .ended result →
      Liveness.Step x.liveness .sessionEnded liveness →
      Step systemTime x (.ended result) { x with liveness, result := some result }
  | waited {x : Runtime plugin} {result : Except SdkError Unit} {liveness : Liveness} :
      Liveness.Step x.liveness (.waited result) liveness →
      Step systemTime x (.waited result) { x with liveness, result := some result }

end Runtime

/-! ### The two branches -/

def RuntimeEvent.liveness? : RuntimeEvent → Option Liveness.Event
  | .session _ => none
  | .liveness e => some e
  | .ended _ => some .sessionEnded
  | .waited result => some (.waited result)

/-- What the connection does in the step. -/
def RuntimeEvent.connection? : RuntimeEvent → Option ServeEvent
  | .session (.session e) => some e
  | _ => none

namespace Runtime

variable {plugin : Plugin} {systemTime : Timestamp → Except String Unit} {pipe : Pipe} {x x' : Runtime plugin}
  {e : RuntimeEvent} {h : List RuntimeEvent} {result : Except SdkError Unit}

/-- The watcher runs as described, whatever the session does. -/
theorem liveness_run (hr : Steps (Step systemTime) x h x') :
    Steps Liveness.Step x.liveness (h.filterMap RuntimeEvent.liveness?) x'.liveness := by
  have hf : Refines (Step systemTime) Liveness.Step
    (fun _ : Runtime plugin => True) liveness RuntimeEvent.liveness? some := by
    refine ⟨fun _ _ => trivial, fun _ hs => ?_⟩
    cases hs with
    | session => exact Refines.simulates_stutter rfl rfl
    | liveness hs | ended _ hs | waited hs => exact Refines.simulates_step hs rfl
  obtain ⟨l, hl, hshown⟩ := hf.run trivial hr
  rw [List.filterMap_some] at hshown
  exact hshown ▸ hl

private theorem liveness_steps (hr : Steps (Step systemTime) (init plugin pipe) h x) :
    Steps Liveness.Step (.init pipe) (h.filterMap RuntimeEvent.liveness?) x.liveness := liveness_run hr

/-- The session has come to its end by a step of the run, and has done nothing since. -/
private theorem exists_ended (hr : Steps (Step systemTime) (init plugin pipe) h x) :
    ∀ result, x.session = .ended result → ∃ h₁ e h₂ t, h = h₁ ++ .session e :: h₂ ∧ Steps (Step systemTime)
    (init plugin pipe) h₁ t ∧
      SessionRun.Step systemTime t.session e (.ended result) ∧ h₂.filterMap RuntimeEvent.connection? = [] := by
  refine Steps.history (I := fun h x => ∀ result, x.session = .ended result →
    ∃ h₁ e h₂ t, h = h₁ ++ .session e :: h₂ ∧ Steps (Step systemTime) (init plugin pipe) h₁ t ∧
      SessionRun.Step systemTime t.session e (.ended result) ∧ h₂.filterMap RuntimeEvent.connection? = [])
    (by simp [init]) (fun h x e x' hr hs ih result hended => ?_) hr
  cases hs with
  | session _ hs =>
    refine ⟨h, _, [], x, rfl, hr, ?_, rfl⟩
    rwa [← hended]
  | liveness | ended | waited =>
    obtain ⟨h₁, e, h₂, t, rfl, ht, hstep, hlast⟩ := ih result hended
    refine ⟨h₁, e, _, t, by rw [List.append_assoc, List.cons_append], ht, hstep, ?_⟩
    rw [List.filterMap_append, hlast]
    rfl

/-- The `select!` has come to its result by a step of the run, and does not poll the session any more. -/
private theorem exists_selected (hr : Steps (Step systemTime) (init plugin pipe) h x) :
    ∀ result, x.result = some result → .waited result ∈ h ∨ ∃ h₁ h₂ t, h = h₁ ++ h₂ ∧ Steps (Step systemTime)
    (init plugin pipe) h₁ t ∧
      t.session = .ended result ∧ h₂.filterMap RuntimeEvent.connection? = [] := by
  refine Steps.history (I := fun h x => ∀ result, x.result = some result → .waited result ∈ h ∨
    ∃ h₁ h₂ t, h = h₁ ++ h₂ ∧ Steps (Step systemTime) (init plugin pipe) h₁ t ∧ t.session = .ended result ∧
      h₂.filterMap RuntimeEvent.connection? = []) (by simp [init]) (fun h x e x' hr hs ih result hresult => ?_) hr
  cases hs with
  | session hnone => cases hnone.symm.trans hresult
  | liveness =>
    rcases ih result hresult with hwaited | ⟨h₁, h₂, t, rfl, ht, hended, hrest⟩
    · exact Or.inl (List.mem_append_left _ hwaited)
    · refine Or.inr ⟨h₁, _, t, List.append_assoc .., ht, hended, ?_⟩
      rw [List.filterMap_append, hrest]
      rfl
  | ended hended =>
    cases hresult
    exact Or.inr ⟨h, _, x, rfl, hr, hended, rfl⟩
  | waited =>
    cases hresult
    exact Or.inl (by simp)

/-- The session has come to where the events of its connection lead. -/
def Follows (w : List ServeEvent) : SessionRun plugin → Prop
  | .connecting | .opening => w = []
  | .connected c => Steps Connection.Step (.opening false) w c
  | .ended _ => True

private theorem follows_step {session session' : SessionRun plugin} {e : SessionEvent} {w : List ServeEvent}
    (hs : SessionRun.Step systemTime session e session') (hf : Follows w session) :
    Follows (w ++ (RuntimeEvent.connection? (.session e)).toList) session' := by
  cases hs with
  | connect =>
    obtain rfl : w = [] := hf
    rfl
  | «open» =>
    obtain rfl : w = [] := hf
    exact .nil
  | step _ hs => exact Steps.snoc hf hs
  | _ => trivial

/-- A session of the process that is connected is a run of the connection. -/
theorem follows (hr : Steps (Step systemTime) (init plugin pipe) h x) :
    Follows (h.filterMap RuntimeEvent.connection?) x.session := by
  have h0 : Follows ([].filterMap RuntimeEvent.connection?) (init plugin pipe).session := rfl
  refine Steps.history (I := fun h (x : Runtime plugin) =>
    Follows (h.filterMap RuntimeEvent.connection?) x.session) h0 (fun h x e x' _ hs ih => ?_) hr
  rw [filterMap_snoc]
  cases hs with
  | session _ hs => exact follows_step hs ih
  | liveness | ended | waited => exact (List.append_nil _).symm ▸ ih

/-- The host and the thread make their steps beside the session. -/
private theorem beside_steps {l : Liveness} {w : List Liveness.Event} (hw : Steps Liveness.Step x.liveness w l)
    (hbeside : ∀ e ∈ w, e ≠ .sessionEnded ∧ ∀ result, e ≠ .waited result) :
    Steps (Step systemTime) x (w.map .liveness) { x with liveness := l } := by
  induction hw with
  | nil => exact .nil
  | snoc _ hs ih =>
    rw [List.map_append]
    obtain ⟨hsession, hwaited⟩ := hbeside _ (List.mem_append_right _ (List.mem_singleton.2 rfl))
    exact (ih fun e he => hbeside e (List.mem_append_left _ he)).snoc (.liveness hs hsession hwaited)

/-! ### How the process ends -/

/-- The host has shut the session down, and it has come to its end: no job is left, and the output stream has taken
out the acknowledgement of the shutdown. -/
def ShutDown (s : Serve) : Prop :=
  ∃ deadline, s.loop = .returned (.ok deadline) ∧ s.jobs.active = ∅ ∧ s.jobs.tasks = [] ∧
    ∃ ack ∈ s.output, ack.payload = some .shutdownAcknowledged

private theorem shutDown_of_returned {c : Connection plugin} {w : List ServeEvent} {s : Serve} {deadline : Timestamp}
    (hr : Steps Connection.Step (.opening false) w c) (hc : c = .serving s)
    (hloop : s.loop = .returned (.ok deadline)) : ShutDown s := by
  subst hc
  obtain ⟨o, session, w, hw, -⟩ := Connection.serving_reachable hr
  obtain ⟨htasks, hactive, count, hack, hle⟩ := (Serve.drained hw).returned deadline hloop
  obtain ⟨h₁, ack, h₂, -, hp, htaken⟩ := hack.output hw hle
  refine ⟨deadline, hloop, ?_, htasks, ack, htaken.subset (by simp), hp⟩
  exact AList.ext (List.map_eq_nil_iff.1 (List.map_eq_nil_iff.1 hactive))

/-- A connection that is shut down has received nothing after the request to do so. -/
private theorem closing_since {c : Connection plugin} {w : List ServeEvent}
    (hr : Steps Connection.Step (.opening false) w c) :
    ∀ s, c = .serving s → s.Closing → Since ServeEvent.ShutsDown ServeEvent.Receives w := by
  refine Steps.history (I := fun w (c : Connection plugin) => ∀ s, c = .serving s → s.Closing →
    Since ServeEvent.ShutsDown ServeEvent.Receives w) (fun s hc => ?_) (fun w c e c' _ hs ih s hc hclosing => ?_) hr
  · cases hc
  cases hs with
  | serve hs =>
    obtain rfl := Connection.serving.inj hc
    refine since_snoc.2 ((hs.closing hclosing).imp_right fun hold => ⟨ih _ rfl hold.1, hold.2⟩)
  | ready =>
    have hhead : s.loop = .head := by rw [← Connection.serving.inj hc, Serve.init]
    simp [Serve.Closing, hhead] at hclosing
  | _ => cases hc

/-- The host has shut the session down: its request to do so is the last envelope that it has sent, the session has
come to its end, and nothing is waited for any more. -/
def EndsShutDown (systemTime : Timestamp → Except String Unit) (plugin : Plugin) (pipe : Pipe)
    (h : List RuntimeEvent) : Prop :=
  Since ServeEvent.ShutsDown ServeEvent.Receives (h.filterMap RuntimeEvent.connection?) ∧
    ∃ h₁ how h₂ t s, h = h₁ ++ .session (.closed how) :: h₂ ∧ Steps (Step systemTime) (init plugin pipe) h₁ t ∧
      t.session = .connected (.serving s) ∧ ShutDown s

/-- `run` returns without an error only if stdin has come to its end, or if the host has shut the session down and
nothing more was received from it until the stream was closed, or failed, or the deadline was over.  An error that it
returns is that of a system call of the watcher, or the one with which the session has failed. -/
theorem run_outcome (hr : Steps (Step systemTime) (init plugin pipe) h x) (hresult : x.result = some result) :
    match result with
    | .ok () => x.liveness.pipe.AtEnd ∨ EndsShutDown systemTime plugin pipe h
    | .error e => (∃ io, Liveness.Failed (h.filterMap RuntimeEvent.liveness?) io ∧
        e = .runtime "watch parent-liveness pipe" io.message) ∨ .session (.failed e) ∈ h := by
  -- the result is what the watcher has reported, or that of the session
  rcases exists_selected hr result hresult with hwaited | ⟨h₁, h₂, t, rfl, ht, hended, hrest⟩
  · have hmem : .waited result ∈ h.filterMap RuntimeEvent.liveness? := List.mem_filterMap.2 ⟨_, hwaited, rfl⟩
    have hexplained := Liveness.explained (liveness_steps hr) hmem
    cases result with
    | ok => exact Or.inl hexplained
    | error e => exact Or.inl hexplained
  · obtain ⟨g₁, e, g₂, u, rfl, hu, hstep, hlast⟩ := exists_ended ht result hended
    generalize hfrom : u.session = session at hstep
    cases hstep with
    | @hostClosed s deadline how hloop =>
      have hw : Follows _ u.session := follows hu
      rw [hfrom] at hw
      have hsince := closing_since hw s rfl (by simp [Serve.Closing, hloop])
      have hall : (g₁ ++ RuntimeEvent.session (.closed how) :: g₂ ++ h₂).filterMap RuntimeEvent.connection? =
          g₁.filterMap RuntimeEvent.connection? := by
        rw [List.filterMap_append, List.filterMap_append, List.filterMap_cons, hlast, hrest]
        simp [RuntimeEvent.connection?]
      refine Or.inr ⟨hall ▸ hsince, g₁, how, g₂ ++ h₂, u, s, by simp, hu, hfrom, shutDown_of_returned hw rfl hloop⟩
    | _ => exact Or.inr (by simp)

/-- A process that has just been started, whose host closes its end of stdin. -/
private theorem sampleIdle_steps : Steps (Step fun _ => .ok ()) (init Connection.samplePlugin Liveness.samplePipe)
    (Liveness.sampleIdle.map .liveness) ⟨.connecting, Liveness.sampleClosed, none⟩ :=
  beside_steps Liveness.sampleIdle_steps (by simp [Liveness.sampleIdle])

private theorem sampleWatched_steps : Steps (Step fun _ => .ok ())
    (⟨.connecting, Liveness.sampleClosed, none⟩ : Runtime plugin) (Liveness.sampleWatched.map .liveness)
    ⟨.connecting, Liveness.sampleReported, none⟩ :=
  beside_steps Liveness.sampleWatched_steps (by simp [Liveness.sampleWatched])

/-- `run` has returned because stdin has come to its end: the session was never shut down. -/
theorem run_outcome_sampleWatched : ∃ (h : List RuntimeEvent) (x : Runtime Connection.samplePlugin),
    Steps (Step fun _ => .ok ()) (init Connection.samplePlugin Liveness.samplePipe) h x ∧ x.result = some (.ok ()) ∧
    x.liveness.pipe.AtEnd := by
  have hwait : Liveness.Step Liveness.sampleReported (.waited (.ok ()))
      { Liveness.sampleReported with owner := .leaving } := .outer (.wait rfl rfl)
  have hr := (sampleIdle_steps.trans sampleWatched_steps).snoc (.waited hwait)
  refine ⟨_, _, hr, rfl, (run_outcome hr rfl).resolve_right ?_⟩
  rintro ⟨-, h₁, how, h₂, -, -, heq, -⟩
  have hmem : RuntimeEvent.session (.closed how) ∈ h₁ ++ .session (.closed how) :: h₂ := by simp
  rw [← heq] at hmem
  simp at hmem

/-! ### A host that is gone -/

private theorem waiting_of_running (hr : Steps (Step systemTime) (init plugin pipe) h x) :
    x.result = none → x.liveness.owner = .waiting := by
  refine hr.invariant (I := fun x => x.result = none → x.liveness.owner = .waiting) (fun x e x' hs ih hrun => ?_)
    (fun _ => rfl)
  cases hs with
  | session => exact ih hrun
  | ended | waited => cases hrun
  | liveness hs hsession hwaited =>
    have howner := ih hrun
    cases hs with
    | watcher hs => exact hs.owner.trans howner
    | outer hs =>
      cases hs with
      | sessionEnd => exact absurd rfl hsession
      | wait => exact absurd rfl (hwaited _)
      | stop hleaving => exact absurd (hleaving.symm.trans howner) nofun
      | join hjoining => exact absurd (hjoining.symm.trans howner) nofun
      | _ => exact howner

/-- The watcher has reported, and `run` can return what it has said, which is true. -/
def Reported (systemTime : Timestamp → Except String Unit) (h : List RuntimeEvent) (x : Runtime plugin) : Prop :=
  ∃ result liveness, Liveness.Explained (h.filterMap RuntimeEvent.liveness?) x.liveness result ∧
    Step systemTime x (.waited result) { x with liveness, result := some result }

/-- A watcher that has exited while `run` goes on has reported. -/
private theorem reported_of_exited (hr : Steps (Step systemTime) (init plugin pipe) h x) (hrun : x.result = none)
    (hexited : x.liveness.watcher = .exited) : Reported systemTime h x := by
  have hc := Liveness.consistent (liveness_steps hr)
  have howner := waiting_of_running hr hrun
  have hstop : x.liveness.stop = false := by
    rw [Bool.eq_false_iff, ne_eq, hc.stop, howner]
    simp
  obtain ⟨r, hreport, -⟩ := hc.report hexited hstop
  obtain ⟨result, hresult⟩ : ∃ result, Liveness.wait x.liveness.report = some result := by
    rw [hreport]
    cases r <;> exact ⟨_, rfl⟩
  exact ⟨result, _, hc.explained howner hresult, .waited (.outer (.wait howner hresult))⟩

/-- A process does not outlive its host.  Once the host has closed its end of stdin the watcher needs at most four
steps for each byte that is left, four for each system call that fails, and six, whatever the session waits for: by
then `run` has its result, or the report is there.  Until then the watcher can always make a step without a system
call that fails. -/
theorem orphaned (hr : Steps (Step systemTime) (init plugin pipe) h x) (hclosed : x.liveness.pipe.hungUp = true)
    {w : List RuntimeEvent} {u : Runtime plugin} (hw : Steps (Step systemTime) x w u) (hrun : u.result = none) :
    (4 * x.liveness.pipe.buffered + 6 + ((w.filterMap RuntimeEvent.liveness?).map Liveness.Event.detour).sum ≤
        ((w.filterMap RuntimeEvent.liveness?).map Liveness.Event.steps).sum → Reported systemTime (h ++ w) u) ∧
      (Reported systemTime (h ++ w) u ∨
        ∃ e l, u.liveness.SureStep e l ∧ Step systemTime u (.liveness e) { u with liveness := l }) := by
  have hu := hr.trans hw
  refine ⟨fun hmany => ?_, ?_⟩
  · exact reported_of_exited hu hrun (Liveness.exited_of_steps hclosed (liveness_run hw) hmany)
  · by_cases hexited : u.liveness.watcher = .exited
    · exact Or.inl (reported_of_exited hu hrun hexited)
    · obtain ⟨e, l, hsure⟩ := (Liveness.consistent (liveness_steps hu)).sure hexited
      refine Or.inr ⟨e, l, hsure, .liveness (.watcher hsure.1) ?_ fun result => ?_⟩
      · rintro rfl
        cases hsure.1
      · rintro rfl
        cases hsure.1

/-- The host closes its end while the plugin still connects. -/
theorem orphaned_sampleClosed : ∃ (w : List RuntimeEvent) (u : Runtime Connection.samplePlugin),
    Steps (Step fun _ => .ok ()) (init Connection.samplePlugin Liveness.samplePipe)
      (Liveness.sampleIdle.map .liveness ++ w) u ∧ u.session = .connecting ∧
    Reported (fun _ => .ok ()) (Liveness.sampleIdle.map .liveness ++ w) u :=
  ⟨_, _, sampleIdle_steps.trans sampleWatched_steps, rfl,
    (orphaned sampleIdle_steps rfl sampleWatched_steps rfl).1 (by decide)⟩

end Runtime

end PluginSdk
