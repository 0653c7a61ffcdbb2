import Sidecar.Net.Ws
import Sidecar.Permissions.Snapshot

/-! The policy stream: the frames of the websocket client applied to the engine. -/

namespace Sidecar.Permissions

open Net

section Handler

variable (parseFrame : String → Option StreamFrame) (parseAddress : String → Option Address)

/-- A snapshot that cannot be indexed leaves the one before in place. -/
def onMessage (text : String) (engine : PermissionEngine) : PermissionEngine :=
  match parseFrame text with
  | some frame =>
    if frame.type = "snapshot" then
      match PolicySnapshot.fromWire parseAddress frame.data with
      | .ok snapshot => { engine with snapshot := some snapshot }
      | .error _ => engine
    else engine
  | none => engine

def configStreamHandler : MessageHandler PermissionEngine :=
  { onMessage := onMessage parseFrame parseAddress
    onConnected := fun engine => { engine with connected := true }
    onDisconnected := fun engine => { engine with connected := false }
    resumeQuery := fun engine =>
      engine.snapshot.map (fun snapshot => "since=" ++ toString snapshot.version) }

/-- The well-formed snapshot in a text, if it is one. -/
def snapshotIn (text : String) : Option SnapshotData :=
  match parseFrame text with
  | some frame =>
    if frame.type = "snapshot" ∧ wellFormed parseAddress frame.data = true then some frame.data
    else none
  | none => none

/-- Whether the stream is connected after the events. -/
def upAfter (events : List WsEvent) : Bool := (lastSome WsEvent.connection events).getD false

/-- The last well-formed snapshot among the frames. -/
def lastSnapshot (events : List WsEvent) : Option SnapshotData :=
  lastSome (fun event => event.message.bind (snapshotIn parseFrame parseAddress)) events

/-- The text is no frame, a frame of another type, or a snapshot that `from_wire` rejects. -/
def Rejected (text : String) : Prop :=
  ∀ frame, parseFrame text = some frame → frame.type = "snapshot" →
    ∃ err, PolicySnapshot.fromWire parseAddress frame.data = .error err

end Handler

section Frames

variable {parseFrame : String → Option StreamFrame} {parseAddress : String → Option Address}

theorem onMessage_of_rejected {text : String} (h : Rejected parseFrame parseAddress text)
    (engine : PermissionEngine) : onMessage parseFrame parseAddress text engine = engine := by
  unfold onMessage
  cases hparse : parseFrame text with
  | none => rfl
  | some frame =>
    dsimp only
    split_ifs with htype
    · obtain ⟨err, herr⟩ := h frame hparse htype
      rw [herr]
    · rfl

theorem rejected_of_snapshotIn {text : String} (h : snapshotIn parseFrame parseAddress text = none) :
    Rejected parseFrame parseAddress text := by
  intro frame hparse htype
  rw [fromWire_error_iff]
  simp only [snapshotIn, hparse, htype, true_and] at h
  split_ifs at h with hwell
  exact Bool.eq_false_iff.mpr hwell

/-- A snapshot in a frame replaces the stored one. -/
theorem onMessage_of_snapshotIn {text : String} {data : SnapshotData}
    (h : snapshotIn parseFrame parseAddress text = some data) (engine : PermissionEngine) :
    wellFormed parseAddress data = true ∧
      ∃ snapshot, PolicySnapshot.fromWire parseAddress data = .ok snapshot ∧
        onMessage parseFrame parseAddress text engine =
          { engine with snapshot := some snapshot } := by
  unfold snapshotIn at h
  unfold onMessage
  cases hparse : parseFrame text with
  | none =>
    rw [hparse] at h
    simp at h
  | some frame =>
    rw [hparse] at h
    dsimp only at h ⊢
    split_ifs at h with hgood
    obtain ⟨htype, hwell⟩ := hgood
    obtain ⟨snapshot, hok, -⟩ := fromWire_ok hwell
    rw [← Option.some.inj h]
    refine ⟨hwell, snapshot, hok, ?_⟩
    rw [if_pos htype, hok]

end Frames

section Events

variable {parseFrame : String → Option StreamFrame} {parseAddress : String → Option Address}

/-- The engine that the stream keeps: enabled as it was made, connected as the client is, and
with the index of the last well-formed snapshot. -/
structure Follows (parseAddress : String → Option Address) (engine : PermissionEngine)
    (up : Bool) (last : Option SnapshotData) : Prop where
  enabled : engine.enabled = true
  connected : engine.connected = up
  snapshot : ∀ data, last = some data → wellFormed parseAddress data = true ∧
    ∃ snapshot, PolicySnapshot.fromWire parseAddress data = .ok snapshot ∧
      engine.snapshot = some snapshot
  empty : last = none → engine.snapshot = none

theorem follows_handled {engine : PermissionEngine} {up : Bool} {last : Option SnapshotData}
    (h : Follows parseAddress engine up last) (event : WsEvent) :
    Follows parseAddress (handled (configStreamHandler parseFrame parseAddress) event engine)
      (event.connection.getD up)
      ((event.message.bind (snapshotIn parseFrame parseAddress)).or last) := by
  cases hconn : event.connection with
  | some b =>
    -- a change of the connection carries no frame
    have hmessage : event.message = none := by
      cases event <;> simp_all [WsEvent.connection, WsEvent.message]
    rw [hmessage, Option.bind_none, Option.none_or, Option.getD_some]
    cases b with
    | true =>
      simp only [handled, hconn]
      exact ⟨h.enabled, rfl, h.snapshot, h.empty⟩
    | false =>
      simp only [handled, hconn]
      exact ⟨h.enabled, rfl, h.snapshot, h.empty⟩
  | none =>
    simp only [handled, hconn, Option.getD_none]
    cases hmessage : event.message with
    | none => exact h
    | some text =>
      rw [Option.elim_some, Option.bind_some]
      show Follows parseAddress (onMessage parseFrame parseAddress text engine) up _
      cases hsnap : snapshotIn parseFrame parseAddress text with
      | none =>
        rw [onMessage_of_rejected (rejected_of_snapshotIn hsnap), Option.none_or]
        exact h
      | some data =>
        obtain ⟨hwell, snapshot, hok, hengine⟩ := onMessage_of_snapshotIn hsnap engine
        rw [hengine, Option.some_or]
        refine ⟨h.enabled, h.connected, ?_, fun hnone => by simp at hnone⟩
        intro data' hdata
        rw [← Option.some.inj hdata]
        exact ⟨hwell, snapshot, hok, rfl⟩

theorem follows_run {client : WsClient} {events : List WsEvent}
    {s t : Subscription PermissionEngine}
    (hrun : Run (WsStep (configStreamHandler parseFrame parseAddress) client) s events t)
    {up : Bool} {last : Option SnapshotData} (h : Follows parseAddress s.state up last) :
    Follows parseAddress t.state ((lastSome WsEvent.connection events).getD up)
      ((lastSnapshot parseFrame parseAddress events).or last) := by
  induction hrun generalizing up last with
  | nil s => exact h
  | @cons s u t event events hstep _ ih =>
    have hnext := @follows_handled parseFrame parseAddress _ _ _ h event
    rw [← state_of_wsStep hstep] at hnext
    have hrest := ih hnext
    have hup : ((lastSome WsEvent.connection events).getD (event.connection.getD up)) =
        (lastSome WsEvent.connection (event :: events)).getD up := by
      rw [lastSome_cons]
      cases lastSome WsEvent.connection events <;> rfl
    have hlast : (lastSnapshot parseFrame parseAddress events).or
        ((event.message.bind (snapshotIn parseFrame parseAddress)).or last) =
        (lastSnapshot parseFrame parseAddress (event :: events)).or last := by
      rw [lastSnapshot, lastSnapshot, lastSome_cons, Option.or_assoc]
    rw [hup, hlast] at hrest
    exact hrest

/-- An engine that follows the stream allows what its last snapshot permits, and nothing
without one or without a connection. -/
theorem Follows.evaluateXt_iff {engine : PermissionEngine} {up : Bool}
    {last : Option SnapshotData} (h : Follows parseAddress engine up last) (sender : Address)
    (localChain : ChainId) (involved : List ChainId) :
    engine.evaluateXt sender localChain involved = .allow ↔
      up = true ∧ ∃ data, last = some data ∧
        MayTakePart parseAddress data sender localChain involved := by
  have hclosed : engine.fresh = none →
      engine.evaluateXt sender localChain involved ≠ .allow := by
    intro hnone
    simp [PermissionEngine.evaluateXt, PermissionEngine.resolveGroup, h.enabled, hnone]
  cases hup : up with
  | false =>
    have hconn : engine.connected = false := h.connected.trans hup
    have hfresh : engine.fresh = none := by simp [PermissionEngine.fresh, hconn]
    simpa using hclosed hfresh
  | true =>
    have hconn : engine.connected = true := h.connected.trans hup
    cases hlast : last with
    | none =>
      have hfresh : engine.fresh = none := by
        simp [PermissionEngine.fresh, h.empty hlast]
      simpa using hclosed hfresh
    | some data =>
      obtain ⟨hwell, snapshot, hok, hstored⟩ := h.snapshot data hlast
      obtain ⟨indexed, hok', -, hindex⟩ := fromWire_ok hwell
      obtain rfl := Except.ok.inj (hok.symm.trans hok')
      have hfresh : engine.fresh = some snapshot := by
        simp [PermissionEngine.fresh, hconn, hstored]
      rw [evaluateXt_fromWire hwell h.enabled hfresh hindex]
      simp

/-- A rejected frame can be left out of a run. -/
theorem run_without_rejected {client : WsClient} {before after : List WsEvent} {event : WsEvent}
    {s t : Subscription PermissionEngine} {text : String} (hmessage : event.message = some text)
    (hrejected : Rejected parseFrame parseAddress text)
    (hrun : Run (WsStep (configStreamHandler parseFrame parseAddress) client) s
      (before ++ event :: after) t) :
    Run (WsStep (configStreamHandler parseFrame parseAddress) client) s (before ++ after) t := by
  obtain ⟨u, hbefore, hrest⟩ := hrun.of_append
  cases hrest with
  | @cons _ v _ _ _ hstep hafter =>
    have hphase := phase_of_message hstep hmessage
    have hconn : event.connection = none := by
      cases event <;> simp_all [WsEvent.connection, WsEvent.message]
    have hstate : v.state = u.state := by
      rw [state_of_wsStep hstep]
      simp only [handled, hconn, hmessage, Option.elim_some]
      exact onMessage_of_rejected hrejected u.state
    have hsame : v = u := by
      cases v
      cases u
      simp_all
    rw [hsame] at hafter
    exact hbefore.append hafter

end Events

/-- An enabled engine follows the last well-formed snapshot and fails closed, after every
sequence of events of the websocket client; and a frame that is rejected, with `from_wire`
rejecting exactly the ill-formed snapshots, might as well not have come. -/
theorem engine_follows_last_snapshot (parseFrame : String → Option StreamFrame)
    (parseAddress : String → Option Address) (client : WsClient) {events : List WsEvent}
    {s : Subscription PermissionEngine}
    (hrun : Run (WsStep (configStreamHandler parseFrame parseAddress) client)
      (connecting (configStreamHandler parseFrame parseAddress) client { enabled := true })
      events s) :
    (∀ sender localChain involved, s.state.evaluateXt sender localChain involved = .allow ↔
      upAfter events = true ∧
        ∃ data, lastSnapshot parseFrame parseAddress events = some data ∧
          MayTakePart parseAddress data sender localChain involved) ∧
      (∀ data, (∃ err, PolicySnapshot.fromWire parseAddress data = .error err) ↔
        wellFormed parseAddress data = false) ∧
      ∀ before event after text, events = before ++ event :: after →
        event.message = some text → Rejected parseFrame parseAddress text →
        Run (WsStep (configStreamHandler parseFrame parseAddress) client)
          (connecting (configStreamHandler parseFrame parseAddress) client { enabled := true })
          (before ++ after) s := by
  have hstart : Follows parseAddress { enabled := true } false none :=
    ⟨rfl, rfl, fun data h => by simp at h, fun _ => rfl⟩
  have hfollows := follows_run hrun hstart
  rw [Option.or_none] at hfollows
  refine ⟨fun sender localChain involved => hfollows.evaluateXt_iff sender localChain involved,
    fromWire_error_iff, ?_⟩
  intro before event after text hevents hmessage hrejected
  rw [hevents] at hrun
  exact run_without_rejected hmessage hrejected hrun

/-- A wallet under a group that may only work with chain 2. -/
def restrictedPolicy : String :=
  "\x7b\"type\":\"snapshot\",\"data\":\x7b\"version\":7,\"entities\":[\x7b\"isActive\":true," ++
  "\"ruleGroupId\":\"g\",\"walletAddresses\":[\x7b\"address\":" ++
  "\"0x1111111111111111111111111111111111111111\"\x7d]\x7d],\"ruleGroups\":[\x7b\"ruleGroupId\":\"g\"," ++
  "\"networkScope\":\"Restricted\",\"rollups\":[\x7b\"chainId\":2\x7d]\x7d]\x7d\x7d"

/-- An entity of a group that is not there. -/
def brokenPolicy : String :=
  "\x7b\"type\":\"snapshot\",\"data\":\x7b\"version\":8,\"entities\":[\x7b\"ruleGroupId\":" ++
  "\"missing\"\x7d]\x7d\x7d"

def restrictedEntity : WireEntity :=
  { isActive := true
    ruleGroupId := "g"
    walletAddresses := [⟨"0x1111111111111111111111111111111111111111"⟩] }

def restrictedGroup : WireRuleGroup :=
  { ruleGroupId := "g"
    networkScope := "Restricted"
    rollups := [⟨2⟩] }

def restrictedData : SnapshotData :=
  { version := 7
    entities := [restrictedEntity]
    ruleGroups := [restrictedGroup] }

/-- The two texts as the JSON parser reads them. -/
def parsePolicy (text : String) : Option StreamFrame :=
  if text = restrictedPolicy then some ⟨"snapshot", restrictedData⟩
  else if text = brokenPolicy then
    some ⟨"snapshot", { version := 8, entities := [{ ruleGroupId := "missing" }] }⟩
  else none

def parseWallet (text : String) : Option Address :=
  if text = "0x1111111111111111111111111111111111111111" then some (.repeatByte 20 0x11) else none

def policyEvents : List WsEvent :=
  [.connected, .text restrictedPolicy, .text brokenPolicy, .text "not json"]

theorem mayTakePart_restricted :
    MayTakePart parseWallet restrictedData (.repeatByte 20 0x11) 1 [1, 2] := by
  refine Or.inr ⟨restrictedEntity, by decide, rfl, Or.inr ⟨restrictedGroup, by decide, Or.inr ?_⟩⟩
  decide

/-- The broken policy and the noise after it leave the first one in force until the connection
is lost. -/
theorem engine_follows_last_snapshot_restricted :
    ∃ s t : Subscription PermissionEngine,
      Run (WsStep (configStreamHandler parsePolicy parseWallet) ⟨"ws://policy"⟩)
        (connecting (configStreamHandler parsePolicy parseWallet) ⟨"ws://policy"⟩
          { enabled := true }) policyEvents s ∧
      Run (WsStep (configStreamHandler parsePolicy parseWallet) ⟨"ws://policy"⟩)
        (connecting (configStreamHandler parsePolicy parseWallet) ⟨"ws://policy"⟩
          { enabled := true }) (policyEvents ++ [.idleTimeout]) t ∧
      s.state.evaluateXt (.repeatByte 20 0x11) 1 [1, 2] = .allow ∧
      t.state.evaluateXt (.repeatByte 20 0x11) 1 [1, 2] ≠ .allow := by
  have hrun : ∃ s, Run (WsStep (configStreamHandler parsePolicy parseWallet) ⟨"ws://policy"⟩)
      (connecting (configStreamHandler parsePolicy parseWallet) ⟨"ws://policy"⟩
        { enabled := true }) policyEvents s ∧ s.phase = .streaming :=
    ⟨_, .cons rfl (.cons rfl (.cons rfl (.cons rfl (.nil _)))), rfl⟩
  obtain ⟨s, hrun, hphase⟩ := hrun
  have hlost : ∃ t, WsStep (configStreamHandler parsePolicy parseWallet) ⟨"ws://policy"⟩ s
      .idleTimeout t := by
    simp only [WsStep, next, hphase]
    exact ⟨_, rfl⟩
  obtain ⟨t, ht⟩ := hlost
  have hallowed := (engine_follows_last_snapshot parsePolicy parseWallet ⟨"ws://policy"⟩ hrun).1
    (.repeatByte 20 0x11) 1 [1, 2]
  have hdenied := (engine_follows_last_snapshot parsePolicy parseWallet ⟨"ws://policy"⟩
    (hrun.snoc ht)).1 (.repeatByte 20 0x11) 1 [1, 2]
  refine ⟨s, t, hrun, hrun.snoc ht, hallowed.mpr ?_, fun hallow => ?_⟩
  · exact ⟨by decide, restrictedData, by decide +kernel, mayTakePart_restricted⟩
  · exact absurd (hdenied.mp hallow).1 (by decide)

end Sidecar.Permissions
