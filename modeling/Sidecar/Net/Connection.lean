import Sidecar.Framework.Lock
import Sidecar.Net.Client

/-! The connection that all calls of a QUIC client share. Connections are numbered in the order in
which they were opened; the client itself only sees their stable ids. -/

namespace Sidecar.Net

open TaskSystem

/-- Who called `ensure_connected`; `send` makes two attempts. -/
inductive Caller where
  | send (attempt : Nat)
  | recv
  deriving DecidableEq

/-- Who called `connect_with_retry`. -/
inductive RetryCaller where
  | direct
  | ensure (caller : Caller)
  deriving DecidableEq

/-- Who called `connect`. -/
inductive ConnectCaller where
  | direct
  | retry (attempt : Nat) (caller : RetryCaller)
  deriving DecidableEq

/-- Who called `mark_disconnected`: a call whose connection failed, or `close`. -/
inductive Marker where
  | failed (caller : Caller) (conn : Nat)
  | close
  deriving DecidableEq

/-- The points of all calls where others may run, and the points inside the two critical sections
of the connection's mutex. -/
inductive ClientTask where
  | ensure (caller : Caller)
  | ensured (caller : Caller)
  | use (caller : Caller) (conn : Nat)
  | retry (caller : RetryCaller)
  | connect (caller : ConnectCaller)
  | check (caller : ConnectCaller)
  | dial (caller : ConnectCaller)
  | store (caller : ConnectCaller) (conn : Nat)
  | replace (caller : ConnectCaller) (conn : Nat)
  | raise (caller : ConnectCaller)
  | unlock (caller : ConnectCaller)
  | close
  | mark (marker : Marker)
  | compare (marker : Marker)
  | take (marker : Marker)
  | release (marker : Marker)
  deriving DecidableEq

/-- Why a connection was closed by the client. -/
inductive Cause where
  | replaced (conn : Nat)
  | reported (conn : Nat)
  | closed
  deriving DecidableEq

inductive ClientEvent where
  | stored (conn : Nat)
  | closed (conn : Nat) (cause : Cause)
  deriving DecidableEq

/-- The stored connection, the flag beside it, the two mutexes and how many connections were
opened so far. -/
structure ClientShared where
  connection : Option Nat := none
  connected : Bool := false
  mutex : Bool := false
  connectLock : Bool := false
  opened : Nat := 0
  deriving DecidableEq

/-- What becomes of a call that has a connection: it returns, its connection has failed, or it
drops the stream and goes on. -/
inductive UseOutcome where
  | returned
  | failed
  | dropped
  deriving DecidableEq

structure ClientReply where
  dialed : Bool := true
  outcome : UseOutcome := .returned
  deriving DecidableEq

abbrev ClientWorld := TaskSystem ClientShared ClientTask ClientEvent

section Returns

def RetryCaller.returned (ok : Bool) : RetryCaller → List ClientTask
  | .direct => []
  | .ensure caller => if ok then [.ensured caller] else []

/-- The loop of `connect_with_retry` around `connect`. -/
def ConnectCaller.returned (client : QuicClient) (ok : Bool) : ConnectCaller → List ClientTask
  | .direct => []
  | .retry attempt caller =>
    if ok then caller.returned true
    else if attempt < client.attempts then [.connect (.retry (attempt + 1) caller)]
    else caller.returned false

/-- A first attempt to send and every `recv` go on after their report. -/
def Marker.returned : Marker → List ClientTask
  | .failed (.send attempt) _ => if attempt = 1 then [.ensure (.send 2)] else []
  | .failed .recv _ => [.ensure .recv]
  | .close => []

def Marker.cause : Marker → Cause
  | .failed _ conn => .reported conn
  | .close => .closed

end Returns

section Step

variable (stableId : Nat → Nat) (client : QuicClient) (reply : ClientReply) (sh : ClientShared)

/-- The id that `mark_disconnected` is given. -/
def Marker.expected : Marker → Option Nat
  | .failed _ conn => some (stableId conn)
  | .close => none

/-- The test of `mark_disconnected`, by stable ids. -/
def Marker.shouldClear (marker : Marker) : Bool :=
  match marker.expected stableId, sh.connection with
  | some id, some conn => stableId conn = id
  | some _, none => false
  | none, _ => true

/-- One step of a call. A task that waits for a mutex has none while it is taken. -/
def clientStep : ClientTask → Option (ClientShared × List ClientTask × List ClientEvent)
  | .ensure caller =>
    if sh.mutex then none
    else some (sh, sh.connection.elim [.retry (.ensure caller)] (fun conn => [.use caller conn]), [])
  | .ensured caller =>
    if sh.mutex then none
    else some (sh, sh.connection.elim [] (fun conn => [.use caller conn]), [])
  | .use caller conn =>
    match reply.outcome, caller with
    | .returned, _ => some (sh, [], [])
    | .failed, caller => some (sh, [.mark (.failed caller conn)], [])
    | .dropped, .recv => some (sh, [.ensure .recv], [])
    | .dropped, .send _ => none
  | .retry caller =>
    if sh.mutex then none
    else
      some (sh, if sh.connection.isSome then caller.returned true else [.connect (.retry 1 caller)],
        [])
  | .connect caller =>
    if sh.connectLock then none else some ({ sh with connectLock := true }, [.check caller], [])
  | .check caller =>
    if sh.mutex then none
    else if sh.connection.isSome then
      some ({ sh with connectLock := false }, caller.returned client true, [])
    else some (sh, [.dial caller], [])
  | .dial caller =>
    if reply.dialed then
      some ({ sh with opened := sh.opened + 1 }, [.store caller sh.opened], [])
    else some ({ sh with connectLock := false }, caller.returned client false, [])
  | .store caller conn =>
    if sh.mutex then none else some ({ sh with mutex := true }, [.replace caller conn], [])
  | .replace caller conn =>
    some ({ sh with connection := some conn }, [.raise caller],
      sh.connection.toList.map (fun old => .closed old (.replaced conn)) ++ [.stored conn])
  | .raise caller => some ({ sh with connected := true }, [.unlock caller], [])
  | .unlock caller =>
    some ({ sh with mutex := false, connectLock := false }, caller.returned client true, [])
  | .close =>
    if sh.connectLock then none else some ({ sh with connectLock := true }, [.mark .close], [])
  | .mark marker =>
    if sh.mutex then none else some ({ sh with mutex := true }, [.compare marker], [])
  | .compare marker =>
    if marker.shouldClear stableId sh then some ({ sh with connected := false }, [.take marker], [])
    else some (sh, [.release marker], [])
  | .take marker =>
    some ({ sh with connection := none }, [.release marker],
      sh.connection.toList.map (fun conn => .closed conn marker.cause))
  | .release marker =>
    some ({ sh with
        mutex := false
        connectLock := if marker = .close then false else sh.connectLock },
      marker.returned, [])

end Step

/-- The client as `recv` alone sees it. -/
def ClientShared.state (stableId : Nat → Nat) (sh : ClientShared) : ClientState :=
  ⟨sh.connection.map stableId, sh.connected⟩

/-- The critical section of `mark_disconnected` as a whole does what it does to a client that has
one call only. -/
theorem state_markDisconnected (stableId : Nat → Nat) (client : QuicClient) (reply : ClientReply)
    (marker : Marker) (sh : ClientShared) :
    ∃ sh' t es, clientStep stableId client reply sh (.compare marker) = some (sh', [t], es) ∧
      ((t = .release marker ∧ sh'.state stableId =
          (sh.state stableId).markDisconnected (marker.expected stableId)) ∨
        ∃ sh'' es', clientStep stableId client reply sh' t = some (sh'', [.release marker], es') ∧
          sh''.state stableId =
            (sh.state stableId).markDisconnected (marker.expected stableId)) := by
  by_cases hclear : marker.shouldClear stableId sh = true
  · refine ⟨{ sh with connected := false }, .take marker, [], if_pos hclear, Or.inr
      ⟨{ sh with connected := false, connection := none }, _, rfl, ?_⟩⟩
    unfold Marker.shouldClear at hclear
    unfold ClientShared.state ClientState.markDisconnected
    cases hexpected : marker.expected stableId <;> cases hconn : sh.connection <;> simp_all
  · refine ⟨sh, .release marker, [], if_neg hclear, Or.inl ⟨rfl, ?_⟩⟩
    unfold Marker.shouldClear at hclear
    unfold ClientShared.state ClientState.markDisconnected
    cases hexpected : marker.expected stableId <;> cases hconn : sh.connection <;> simp_all

/-- The task is in a critical section of the connection's mutex. -/
def ClientTask.holds : ClientTask → Bool
  | .replace _ _ | .raise _ | .unlock _ | .compare _ | .take _ | .release _ => true
  | _ => false

/-- The task has the guard of `connect_lock`, outside those sections. -/
def ClientTask.connects : ClientTask → Bool
  | .check _ | .dial _ | .store _ _ | .mark .close => true
  | _ => false

/-- The connection that a task is about to store. -/
def ClientTask.storing : ClientTask → List Nat
  | .store _ conn | .replace _ conn => [conn]
  | _ => []

/-- The calls from outside. -/
inductive ClientCall where
  | connect
  | connectWithRetry
  | send
  | recv
  | close
  deriving DecidableEq

def ClientCall.task : ClientCall → ClientTask
  | .connect => .connect .direct
  | .connectWithRetry => .retry .direct
  | .send => .ensure (.send 1)
  | .recv => .ensure .recv
  | .close => .close

inductive ClientMove where
  | arrive (call : ClientCall)
  | run (task : ClientTask) (reply : ClientReply)
  | drop (task : ClientTask)

/-- Every interleaving of calls. A caller may also give up at any point where its call waits, that
is outside the critical sections of the mutex. -/
inductive ClientStep (stableId : Nat → Nat) (client : QuicClient) :
    ClientWorld → ClientMove → ClientWorld → Prop
  | arrive (w : ClientWorld) (call : ClientCall) :
      ClientStep stableId client w (.arrive call) { w with tasks := w.tasks ++ [call.task] }
  | run {w w' : ClientWorld} {task : ClientTask} {reply : ClientReply}
      (h : TaskRuns (clientStep stableId client) reply task w w') :
      ClientStep stableId client w (.run task reply) w'
  | drop {w : ClientWorld} {task : ClientTask} {before after : List ClientTask}
      (htasks : w.tasks = before ++ task :: after) (hwaits : task.holds = false) :
      ClientStep stableId client w (.drop task)
        { w with
          shared := { w.shared with
            connectLock := if task.connects then false else w.shared.connectLock }
          tasks := before ++ after }

def ClientWorld.initial : ClientWorld := ⟨{}, [], []⟩

section Effect

/-- Tasks that are in no critical section and have no connection to store. -/
def Plain (tasks : List ClientTask) : Prop := ∀ t ∈ tasks, t.holds = false ∧ t.storing = []

/-- Everything a step of a call can do to the shared state. -/
inductive ClientEffect (stableId : Nat → Nat) (sh : ClientShared) :
    ClientTask → ClientShared → List ClientTask → List ClientEvent → Prop
  | outside {t : ClientTask} {next : List ClientTask} (ht : Plain [t]) (hnext : Plain next)
      (connectLock : Bool) :
      ClientEffect stableId sh t { sh with connectLock := connectLock } next []
  | dialed (caller : ConnectCaller) :
      ClientEffect stableId sh (.dial caller) { sh with opened := sh.opened + 1 }
        [.store caller sh.opened] []
  | entersStore (caller : ConnectCaller) (conn : Nat) (hfree : sh.mutex = false) :
      ClientEffect stableId sh (.store caller conn) { sh with mutex := true }
        [.replace caller conn] []
  | replaced (caller : ConnectCaller) (conn : Nat) :
      ClientEffect stableId sh (.replace caller conn) { sh with connection := some conn }
        [.raise caller]
        (sh.connection.toList.map (fun old => .closed old (.replaced conn)) ++ [.stored conn])
  | raised (caller : ConnectCaller) :
      ClientEffect stableId sh (.raise caller) { sh with connected := true } [.unlock caller] []
  | unlocked (caller : ConnectCaller) {next : List ClientTask} (hnext : Plain next) :
      ClientEffect stableId sh (.unlock caller) { sh with mutex := false, connectLock := false }
        next []
  | entersMark (marker : Marker) (hfree : sh.mutex = false) :
      ClientEffect stableId sh (.mark marker) { sh with mutex := true } [.compare marker] []
  | keeps (marker : Marker) :
      ClientEffect stableId sh (.compare marker) sh [.release marker] []
  | clears (marker : Marker) (h : marker.shouldClear stableId sh = true) :
      ClientEffect stableId sh (.compare marker) { sh with connected := false } [.take marker] []
  | taken (marker : Marker) :
      ClientEffect stableId sh (.take marker) { sh with connection := none } [.release marker]
        (sh.connection.toList.map (fun conn => .closed conn marker.cause))
  | released (marker : Marker) {next : List ClientTask} (hnext : Plain next) (connectLock : Bool) :
      ClientEffect stableId sh (.release marker)
        { sh with mutex := false, connectLock := connectLock } next []

theorem plain_nil : Plain [] := by simp [Plain]

theorem plain_singleton {t : ClientTask} (hholds : t.holds = false) (hstoring : t.storing = []) :
    Plain [t] := by
  intro u hu
  rw [List.mem_singleton.mp hu]
  exact ⟨hholds, hstoring⟩

theorem RetryCaller.plain_returned (ok : Bool) (caller : RetryCaller) :
    Plain (caller.returned ok) := by
  cases caller with
  | direct => exact plain_nil
  | ensure caller =>
    cases ok with
    | false => exact plain_nil
    | true => exact plain_singleton rfl rfl

theorem ConnectCaller.plain_returned (client : QuicClient) (ok : Bool) (caller : ConnectCaller) :
    Plain (caller.returned client ok) := by
  cases caller with
  | direct => exact plain_nil
  | retry attempt caller =>
    cases ok with
    | true => exact caller.plain_returned true
    | false =>
      simp only [ConnectCaller.returned, Bool.false_eq_true, if_false]
      split_ifs
      · exact plain_singleton rfl rfl
      · exact caller.plain_returned false

theorem Marker.plain_returned (marker : Marker) : Plain marker.returned := by
  cases marker with
  | close => exact plain_nil
  | failed caller conn =>
    cases caller with
    | recv => exact plain_singleton rfl rfl
    | send attempt =>
      simp only [Marker.returned]
      split_ifs
      · exact plain_singleton rfl rfl
      · exact plain_nil

theorem clientStep_effect {stableId : Nat → Nat} {client : QuicClient} {reply : ClientReply}
    {sh sh' : ClientShared} {t : ClientTask} {next : List ClientTask} {es : List ClientEvent}
    (h : clientStep stableId client reply sh t = some (sh', next, es)) :
    ClientEffect stableId sh t sh' next es := by
  have hout : ∀ {s : ClientShared} {u : List ClientTask} {e : List ClientEvent},
      some (s, u, e) = some (sh', next, es) → ClientEffect stableId sh t s u e →
      ClientEffect stableId sh t sh' next es := by
    intro s u e he heffect
    obtain ⟨rfl, rfl, rfl⟩ : s = sh' ∧ u = next ∧ e = es := by simpa using he
    exact heffect
  -- a step that leaves everything but the connect lock alone
  have hplain : ∀ (lock : Bool) {u : List ClientTask}, Plain [t] →
      some ({ sh with connectLock := lock }, u, []) = some (sh', next, es) → Plain u →
      ClientEffect stableId sh t sh' next es :=
    fun lock u ht he hu => hout he (.outside ht hu lock)
  cases t with
  | ensure caller =>
    simp only [clientStep] at h
    split_ifs at h
    refine hplain sh.connectLock (plain_singleton rfl rfl) h ?_
    cases sh.connection <;> exact plain_singleton rfl rfl
  | ensured caller =>
    simp only [clientStep] at h
    split_ifs at h
    refine hplain sh.connectLock (plain_singleton rfl rfl) h ?_
    cases sh.connection with
    | none => exact plain_nil
    | some conn => exact plain_singleton rfl rfl
  | use caller conn =>
    simp only [clientStep] at h
    split at h
    · exact hplain sh.connectLock (plain_singleton rfl rfl) h plain_nil
    · exact hplain sh.connectLock (plain_singleton rfl rfl) h (plain_singleton rfl rfl)
    · exact hplain sh.connectLock (plain_singleton rfl rfl) h (plain_singleton rfl rfl)
    · simp at h
  | retry caller =>
    simp only [clientStep] at h
    split_ifs at h
    · exact hplain sh.connectLock (plain_singleton rfl rfl) h (caller.plain_returned true)
    · exact hplain sh.connectLock (plain_singleton rfl rfl) h (plain_singleton rfl rfl)
  | connect caller =>
    simp only [clientStep] at h
    split_ifs at h
    exact hplain _ (plain_singleton rfl rfl) h (plain_singleton rfl rfl)
  | check caller =>
    simp only [clientStep] at h
    split_ifs at h
    · exact hplain _ (plain_singleton rfl rfl) h (caller.plain_returned client true)
    · exact hplain sh.connectLock (plain_singleton rfl rfl) h (plain_singleton rfl rfl)
  | dial caller =>
    simp only [clientStep] at h
    split_ifs at h
    · exact hout h (.dialed caller)
    · exact hplain _ (plain_singleton rfl rfl) h (caller.plain_returned client false)
  | store caller conn =>
    simp only [clientStep] at h
    split_ifs at h with hfree
    exact hout h (.entersStore caller conn (by simpa using hfree))
  | replace caller conn => exact hout h (.replaced caller conn)
  | raise caller => exact hout h (.raised caller)
  | unlock caller => exact hout h (.unlocked caller (caller.plain_returned client true))
  | close =>
    simp only [clientStep] at h
    split_ifs at h
    exact hplain _ (plain_singleton rfl rfl) h (plain_singleton rfl rfl)
  | mark marker =>
    simp only [clientStep] at h
    split_ifs at h with hfree
    exact hout h (.entersMark marker (by simpa using hfree))
  | compare marker =>
    simp only [clientStep] at h
    split_ifs at h with hclear
    · exact hout h (.clears marker hclear)
    · exact hout h (.keeps marker)
  | take marker => exact hout h (.taken marker)
  | release marker => exact hout h (.released marker marker.plain_returned _)

end Effect

section Guard

/-- What the log says about the stored connection: a connection that was stored is still there or
was closed, a closed one was stored and is not there, and a report closed only the connection that
it was about. -/
structure Books (connection : Option Nat) (log : List ClientEvent) : Prop where
  kept : ∀ conn, .stored conn ∈ log → connection = some conn ∨ ∃ cause, .closed conn cause ∈ log
  stored : ∀ conn, connection = some conn → .stored conn ∈ log
  gone : ∀ conn cause, .closed conn cause ∈ log → .stored conn ∈ log ∧ connection ≠ some conn
  reported : ∀ conn report, .closed conn (.reported report) ∈ log → conn = report

theorem Books.initial : Books none [] := by
  constructor <;> simp

/-- The flag follows the stored connection, except in between the writes of a critical section. -/
def FlagView (sh : ClientShared) : Option ClientTask → Prop
  | some (.take marker) => sh.connected = false ∧
      ∀ conn, sh.connection = some conn → marker.cause = .closed ∨ marker.cause = .reported conn
  | some (.raise _) => sh.connection.isSome = true
  | _ => sh.connected = sh.connection.isSome

def Protected (holder : Option ClientTask) (sh : ClientShared) (log : List ClientEvent) : Prop :=
  FlagView sh holder ∧ Books sh.connection log

/-- By unique ids a report that fits the stored connection is about it. -/
theorem cause_of_shouldClear {stableId : Nat → Nat} (hunique : Function.Injective stableId)
    {marker : Marker} {sh : ClientShared} (h : marker.shouldClear stableId sh = true) {conn : Nat}
    (hconn : sh.connection = some conn) :
    marker.cause = .closed ∨ marker.cause = .reported conn := by
  cases marker with
  | close => exact Or.inl rfl
  | failed caller report =>
    simp only [Marker.shouldClear, Marker.expected, hconn, decide_eq_true_eq] at h
    rw [hunique h]
    exact Or.inr rfl

theorem filter_plain {tasks : List ClientTask} (h : Plain tasks) :
    tasks.filter ClientTask.holds = [] := by
  rw [List.filter_eq_nil_iff]
  intro t ht
  rw [(h t ht).1]
  exact Bool.false_ne_true

/-- Taking the connection out closes it. -/
theorem Books.take {connection : Option Nat} {log : List ClientEvent} (h : Books connection log)
    {cause : Cause}
    (hcause : ∀ conn, connection = some conn → cause = .closed ∨ cause = .reported conn) :
    Books none (log ++ connection.toList.map (fun conn => .closed conn cause)) := by
  cases connection with
  | none =>
    rw [Option.toList_none, List.map_nil, List.append_nil]
    exact h
  | some conn =>
    rw [Option.toList_some, List.map_singleton]
    constructor
    · intro c hc
      simp only [List.mem_append, List.mem_singleton, reduceCtorEq, or_false] at hc
      refine Or.inr ?_
      rcases h.kept c hc with hsame | ⟨why, hclosed⟩
      · rw [Option.some.inj hsame]
        exact ⟨cause, by simp⟩
      · exact ⟨why, List.mem_append_left _ hclosed⟩
    · simp
    · intro c why hc
      simp only [List.mem_append, List.mem_singleton, ClientEvent.closed.injEq] at hc
      refine ⟨List.mem_append_left _ ?_, by simp⟩
      rcases hc with hold | ⟨rfl, -⟩
      · exact (h.gone c why hold).1
      · exact h.stored c rfl
    · intro c report hc
      simp only [List.mem_append, List.mem_singleton, ClientEvent.closed.injEq] at hc
      rcases hc with hold | ⟨rfl, hreport⟩
      · exact h.reported c report hold
      · rcases hcause c rfl with hclosed | hsame
        · rw [hclosed] at hreport
          simp at hreport
        · rw [hsame] at hreport
          exact (Cause.reported.inj hreport).symm

/-- Storing a new connection closes the one that it replaces. -/
theorem Books.replace {connection : Option Nat} {log : List ClientEvent} (h : Books connection log)
    {conn : Nat} (hnew : ClientEvent.stored conn ∉ log) :
    Books (some conn)
      (log ++ (connection.toList.map (fun old => .closed old (.replaced conn)) ++ [.stored conn])) := by
  have hmem : ∀ e, e ∈ log ++ (connection.toList.map
      (fun old => ClientEvent.closed old (.replaced conn)) ++ [.stored conn]) ↔
      e ∈ log ∨ (∃ old, connection = some old ∧ e = .closed old (.replaced conn)) ∨
        e = .stored conn := by
    intro e
    cases connection <;> simp
  have hopen : connection ≠ some conn := fun hsame => hnew (h.stored conn hsame)
  constructor
  · intro c hc
    rw [hmem] at hc
    rcases hc with hold | ⟨old, -, he⟩ | he
    · rcases h.kept c hold with hsame | ⟨why, hclosed⟩
      · exact Or.inr ⟨.replaced conn, (hmem _).mpr (Or.inr (Or.inl ⟨c, hsame, rfl⟩))⟩
      · exact Or.inr ⟨why, List.mem_append_left _ hclosed⟩
    · simp at he
    · exact Or.inl (congrArg some (ClientEvent.stored.inj he).symm)
  · intro c hc
    rw [← Option.some.inj hc]
    exact (hmem _).mpr (Or.inr (Or.inr rfl))
  · intro c why hc
    rw [hmem] at hc
    have hstored : ClientEvent.stored c ∈ log := by
      rcases hc with hold | ⟨old, hsame, he⟩ | he
      · exact (h.gone c why hold).1
      · rw [(ClientEvent.closed.inj he).1]
        exact h.stored old hsame
      · simp at he
    refine ⟨List.mem_append_left _ hstored, fun hsame => hnew ?_⟩
    rw [Option.some.inj hsame]
    exact hstored
  · intro c report hc
    rw [hmem] at hc
    rcases hc with hold | ⟨old, -, he⟩ | he
    · exact h.reported c report hold
    · simp at he
    · simp at he

def storedOf : ClientEvent → Option Nat
  | .stored conn => some conn
  | .closed _ _ => none

/-- The mutex is used as it should be, and every connection is stored at most once. -/
structure ClientInv (w : ClientWorld) : Prop where
  guarded : Guarded ClientShared.mutex ClientTask.holds Protected w
  once : (w.dealt ClientTask.storing storedOf).Nodup
  opened : ∀ conn ∈ w.dealt ClientTask.storing storedOf, conn < w.shared.opened

theorem ClientInv.initial : ClientInv ClientWorld.initial where
  guarded := .free rfl rfl ⟨rfl, Books.initial⟩
  once := List.nodup_nil
  opened := by simp [ClientWorld.initial, dealt, held]

variable {stableId : Nat → Nat} {w : ClientWorld} {before after next : List ClientTask}
  {t : ClientTask} {sh' : ClientShared} {es : List ClientEvent}

/-- What the mutex protects is the stored connection and the flag. -/
theorem Protected.congr {holder : Option ClientTask} {sh sh' : ClientShared}
    {log : List ClientEvent} (h : Protected holder sh log)
    (hconnection : sh'.connection = sh.connection) (hconnected : sh'.connected = sh.connected) :
    Protected holder sh' (log ++ []) := by
  have hview : FlagView sh' holder = FlagView sh holder := by
    unfold FlagView
    rw [hconnection, hconnected]
  rw [List.append_nil]
  unfold Protected
  rw [hview, hconnection]
  exact h

/-- How a step deals with the mutex. -/
theorem lockEffect (hunique : Function.Injective stableId) (h : ClientInv w)
    (htasks : w.tasks = before ++ t :: after)
    (heffect : ClientEffect stableId w.shared t sh' next es) :
    LockEffect ClientShared.mutex ClientTask.holds Protected w.shared w.log t sh' next es := by
  cases heffect with
  | outside ht hnext lock =>
    exact .outside (ht t (List.mem_singleton.mpr rfl)).1 (filter_plain hnext) rfl
      (fun _ hP => hP.congr rfl rfl)
  | dialed caller => exact .outside rfl rfl rfl (fun _ hP => hP.congr rfl rfl)
  | entersStore caller conn hfree =>
    refine .acquires _ rfl rfl hfree rfl (fun hP => ?_)
    have hview : Protected (some (.replace caller conn)) w.shared w.log := hP
    exact hview.congr rfl rfl
  | replaced caller conn =>
    refine .inside _ rfl rfl rfl (fun hP => ⟨rfl, hP.2.replace ?_⟩)
    -- the connection is still in the hands of this task, so it was not stored before
    intro hstored
    have hheld : conn ∈ w.held ClientTask.storing :=
      mem_held.mpr ⟨_, mem_of_split htasks, List.mem_singleton.mpr rfl⟩
    have hlog : conn ∈ w.log.filterMap storedOf := List.mem_filterMap.mpr ⟨_, hstored, rfl⟩
    exact List.disjoint_of_nodup_append h.once hheld hlog
  | raised caller =>
    refine .inside _ rfl rfl rfl (fun hP => ?_)
    rw [List.append_nil]
    exact ⟨hP.1.symm, hP.2⟩
  | unlocked caller hnext =>
    refine .releases rfl (filter_plain hnext) rfl (fun hP => ?_)
    have hview : Protected none w.shared w.log := hP
    exact hview.congr rfl rfl
  | entersMark marker hfree =>
    refine .acquires _ rfl rfl hfree rfl (fun hP => ?_)
    have hview : Protected (some (.compare marker)) w.shared w.log := hP
    exact hview.congr rfl rfl
  | keeps marker =>
    refine .inside _ rfl rfl rfl (fun hP => ?_)
    have hview : Protected (some (.release marker)) w.shared w.log := hP
    exact hview.congr rfl rfl
  | clears marker hclear =>
    refine .inside _ rfl rfl rfl (fun hP => ?_)
    rw [List.append_nil]
    exact ⟨⟨rfl, fun conn => cause_of_shouldClear hunique hclear⟩, hP.2⟩
  | taken marker => exact .inside _ rfl rfl rfl (fun hP => ⟨hP.1.1, hP.2.take hP.1.2⟩)
  | released marker hnext lock =>
    refine .releases rfl (filter_plain hnext) rfl (fun hP => ?_)
    have hview : Protected none w.shared w.log := hP
    exact hview.congr rfl rfl

theorem storing_plain {tasks : List ClientTask} (h : Plain tasks) :
    tasks.flatMap ClientTask.storing = [] := by
  rw [List.flatMap_eq_nil_iff]
  exact fun t ht => (h t ht).2

/-- Only a new connection is added to those that are or were to be stored. -/
theorem dealt_step (htasks : w.tasks = before ++ t :: after)
    (heffect : ClientEffect stableId w.shared t sh' next es) :
    (sh'.opened = w.shared.opened ∧
      (dealt ClientTask.storing storedOf ⟨sh', before ++ next ++ after, w.log ++ es⟩).Perm
        (w.dealt ClientTask.storing storedOf)) ∨
    (sh'.opened = w.shared.opened + 1 ∧
      (dealt ClientTask.storing storedOf ⟨sh', before ++ next ++ after, w.log ++ es⟩).Perm
        (w.shared.opened :: w.dealt ClientTask.storing storedOf)) := by
  have hkeeps : (next.flatMap ClientTask.storing ++ es.filterMap storedOf).Perm t.storing →
      (dealt ClientTask.storing storedOf ⟨sh', before ++ next ++ after, w.log ++ es⟩).Perm
        (w.dealt ClientTask.storing storedOf) :=
    fun hstep => @dealt_perm _ _ _ _ _ _ _ _ _ _ _ sh' _ [] htasks hstep
  have hclosed : ∀ (l : List Nat) (cause : Cause),
      (l.map (fun conn => ClientEvent.closed conn cause)).filterMap storedOf = [] := by
    intro l cause
    rw [List.filterMap_map, List.filterMap_eq_nil_iff]
    exact fun conn _ => rfl
  cases heffect with
  | outside ht hnext lock =>
    refine Or.inl ⟨rfl, hkeeps ?_⟩
    rw [storing_plain hnext, (ht t (List.mem_singleton.mpr rfl)).2]
    exact .refl _
  | dialed caller =>
    exact Or.inr ⟨rfl, @dealt_perm _ _ _ _ _ _ _ _ _ _ _ _ _ [w.shared.opened] htasks (.refl _)⟩
  | entersStore | raised | entersMark | keeps | clears =>
    exact Or.inl ⟨rfl, hkeeps (.refl _)⟩
  | replaced caller conn =>
    refine Or.inl ⟨rfl, hkeeps ?_⟩
    rw [List.filterMap_append, hclosed]
    exact .refl _
  | unlocked caller hnext | released marker hnext lock =>
    refine Or.inl ⟨rfl, hkeeps ?_⟩
    rw [storing_plain hnext]
    exact .refl _
  | taken marker =>
    refine Or.inl ⟨rfl, hkeeps ?_⟩
    rw [hclosed]
    exact .refl _

theorem ClientInv.run_step (h : ClientInv w) (hunique : Function.Injective stableId)
    (htasks : w.tasks = before ++ t :: after)
    (heffect : ClientEffect stableId w.shared t sh' next es) :
    ClientInv ⟨sh', before ++ next ++ after, w.log ++ es⟩ := by
  have hguarded := h.guarded.step htasks (lockEffect hunique h htasks heffect)
  rcases dealt_step htasks heffect with ⟨hopened, hperm⟩ | ⟨hopened, hperm⟩
  · refine ⟨hguarded, hperm.nodup_iff.mpr h.once, fun conn hconn => ?_⟩
    have hlt := h.opened conn (hperm.mem_iff.mp hconn)
    exact hopened ▸ hlt
  · have hnew : w.shared.opened ∉ w.dealt ClientTask.storing storedOf :=
      fun hmem => Nat.lt_irrefl _ (h.opened _ hmem)
    refine ⟨hguarded, hperm.nodup_iff.mpr (List.nodup_cons.mpr ⟨hnew, h.once⟩), fun conn hconn => ?_⟩
    have hlt : conn < w.shared.opened + 1 := by
      rcases List.mem_cons.mp (hperm.mem_iff.mp hconn) with rfl | hold
      · exact Nat.lt_succ_self _
      · exact Nat.lt_succ_of_lt (h.opened conn hold)
    exact hopened ▸ hlt

theorem ClientCall.plain_task (call : ClientCall) : Plain [call.task] := by
  cases call <;> exact plain_singleton rfl rfl

theorem clientInv_step (hunique : Function.Injective stableId) {client : QuicClient}
    {w w' : ClientWorld} {move : ClientMove} (h : ClientInv w)
    (hstep : ClientStep stableId client w move w') : ClientInv w' := by
  cases hstep with
  | arrive call =>
    obtain ⟨hholds, hstoring⟩ := call.plain_task call.task (List.mem_singleton.mpr rfl)
    have hdealt : dealt ClientTask.storing storedOf { w with tasks := w.tasks ++ [call.task] } =
        w.dealt ClientTask.storing storedOf := by
      simp only [dealt, held, List.flatMap_append, List.flatMap_singleton, hstoring, List.append_nil]
    exact ⟨h.guarded.arrive hholds, hdealt ▸ h.once, hdealt ▸ h.opened⟩
  | run hruns =>
    cases hruns with
    | intro htasks hstep => exact h.run_step hunique htasks (clientStep_effect hstep)
  | @drop task before after htasks hwaits =>
    have hguarded : Guarded ClientShared.mutex ClientTask.holds Protected
        ⟨{ w.shared with
            connectLock := if task.connects then false else w.shared.connectLock },
          before ++ [] ++ after, w.log ++ []⟩ :=
      h.guarded.step htasks (.outside hwaits rfl rfl (fun _ hP => hP.congr rfl rfl))
    rw [List.append_nil, List.append_nil] at hguarded
    -- a connection that was to be stored may go with its task
    have hsub : (dealt ClientTask.storing storedOf
        ⟨w.shared, before ++ after, w.log⟩).Sublist (w.dealt ClientTask.storing storedOf) := by
      simp only [dealt, held, htasks, List.flatMap_append, List.flatMap_cons]
      exact ((List.Sublist.refl _).append (List.sublist_append_right _ _)).append (List.Sublist.refl _)
    exact ⟨hguarded, h.once.sublist hsub, fun conn hconn => h.opened conn (hsub.subset hconn)⟩

theorem clientInv_run (hunique : Function.Injective stableId) {client : QuicClient}
    {moves : List ClientMove}
    (hrun : Run (ClientStep stableId client) ClientWorld.initial moves w) : ClientInv w :=
  hrun.invariant (fun _ _ _ h hstep => clientInv_step hunique h hstep) ClientInv.initial

theorem Guarded.books {P : Option ClientTask → ClientShared → List ClientEvent → Prop}
    (h : Guarded ClientShared.mutex ClientTask.holds P w)
    (hbooks : ∀ holder, P holder w.shared w.log → Books w.shared.connection w.log) :
    Books w.shared.connection w.log := by
  cases h with
  | free _ _ h => exact hbooks none h
  | taken t _ _ h => exact hbooks (some t) h

end Guard

/-- Whatever calls run beside each other, with unique connection ids: while the mutex is free the
flag is up just when a connection is stored; a report of a failed connection closes no other one;
and of all connections that were ever stored the stored one is the only one not closed. -/
theorem client_connection_coherent (stableId : Nat → Nat) (hunique : Function.Injective stableId)
    (client : QuicClient) {moves : List ClientMove} {w : ClientWorld}
    (hrun : Run (ClientStep stableId client) ClientWorld.initial moves w) :
    (w.shared.mutex = false →
      (w.shared.connected = true ↔ ∃ conn, w.shared.connection = some conn)) ∧
    (∀ conn report, .closed conn (.reported report) ∈ w.log → conn = report) ∧
    ∀ conn, w.shared.connection = some conn ↔
      .stored conn ∈ w.log ∧ ∀ cause, .closed conn cause ∉ w.log := by
  have hinv := clientInv_run hunique hrun
  have hbooks : Books w.shared.connection w.log := Guarded.books hinv.guarded (fun _ hP => hP.2)
  refine ⟨fun hfree => ?_, hbooks.reported, fun conn => ⟨fun hconn => ?_, fun hconn => ?_⟩⟩
  · cases hinv.guarded with
    | free _ _ h =>
      have hflag : w.shared.connected = w.shared.connection.isSome := h.1
      rw [hflag, Option.isSome_iff_exists]
    | taken t htaken _ _ => simp [hfree] at htaken
  · exact ⟨hbooks.stored conn hconn, fun cause hclosed => (hbooks.gone conn cause hclosed).2 hconn⟩
  · rcases hbooks.kept conn hconn.1 with hstored | ⟨cause, hclosed⟩
    · exact hstored
    · exact absurd hclosed (hconn.2 cause)

section Exec

/-- A move, with the task that moves named by its position. -/
inductive ClientPick where
  | arrive (call : ClientCall)
  | run (i : Nat) (reply : ClientReply)

def clientPick (stableId : Nat → Nat) (client : QuicClient) (w : ClientWorld) :
    ClientPick → Option (ClientMove × ClientWorld)
  | .arrive call => some (.arrive call, { w with tasks := w.tasks ++ [call.task] })
  | .run i reply =>
    (runAt (clientStep stableId client) reply i w).map (fun r => (.run r.1 reply, r.2))

theorem clientStep_of_pick {stableId : Nat → Nat} {client : QuicClient} (w : ClientWorld)
    (p : ClientPick) (m : ClientMove) (w' : ClientWorld)
    (h : clientPick stableId client w p = some (m, w')) : ClientStep stableId client w m w' := by
  cases p with
  | arrive call =>
    obtain ⟨rfl, rfl⟩ := Prod.mk.inj (Option.some.inj h)
    exact .arrive w call
  | run i reply =>
    obtain ⟨r, hr, he⟩ := Option.map_eq_some_iff.mp h
    obtain ⟨rfl, rfl⟩ := Prod.mk.inj he
    exact .run (taskRuns_of_runAt hr)

/-- Two calls share the first connection. It fails for both; one of them reports it and connects
again before the report of the other one arrives. -/
def staleReport : List ClientPick :=
  let step (i : Nat) : ClientPick := .run i {}
  let fails (i : Nat) : ClientPick := .run i { outcome := .failed }
  [.arrive .recv, .arrive .send] ++ List.replicate 9 (step 0) ++ [step 0, step 1, fails 0, fails 1] ++
    List.replicate 13 (step 0) ++ List.replicate 3 (step 1)

/-- The late report about the first connection, after which the second attempt to send starts,
leaves the second connection in place. -/
theorem client_connection_coherent_stale :
    ∃ w moves, Run (ClientStep id {}) ClientWorld.initial moves w ∧
      .ensure (.send 2) ∈ w.tasks ∧ w.shared.mutex = false ∧ w.shared.connected = true ∧
      w.shared.connection = some 1 ∧ .closed 0 (.reported 0) ∈ w.log ∧
      ∀ cause, .closed 1 cause ∉ w.log := by
  have hs : ∃ w, execAll (clientPick id {}) (fun _ _ => true) staleReport ClientWorld.initial =
      some w ∧ .ensure (.send 2) ∈ w.tasks ∧ w.shared.mutex = false ∧
      w.shared.connection = some 1 ∧ .closed 0 (.reported 0) ∈ w.log :=
    ⟨_, rfl, by decide, rfl, rfl, by decide⟩
  obtain ⟨w, hexec, htask, hmutex, hconn, hclosed⟩ := hs
  obtain ⟨moves, hrun⟩ := run_execAll_free clientStep_of_pick hexec
  obtain ⟨hflag, -, hstored⟩ := client_connection_coherent id Function.injective_id {} hrun
  exact ⟨w, moves, hrun, htask, hmutex, (hflag hmutex).2 ⟨1, hconn⟩, hconn, hclosed,
    ((hstored 1).1 hconn).2⟩

end Exec

end Sidecar.Net
