/-
Elise/Panel/Client.lean

The panel clients (src/panel): the data they exchange with the node runner, `report_traffic` of
the five clients, and `get_user_alivelist`.

A client call is a tree of requests: `Exchange.send req k` sends `req` and goes on as `k` says
for each answer the transport may bring, `Exchange.done` returns.  The panel is the environment,
so it may answer each request with any status or not at all; a body is what the JSON reader
made of it.

The four clients that ask the panel for the alive list share one body; they differ in the keys
they look under and in what they make of a failure:

* Xboard looks under `data` and then takes the body itself, the others look under `alive` first;
* XiaoV2Board returns an error for a failure, the others an empty map.

SSPanel keeps the default of the trait, which asks nothing.  `reportedCounts` is what an alive
list is for: the counts an answer gives when it is a success with a well-formed list, and
nothing otherwise.
-/
import Elise.Lib.AssocMap
import Elise.Lib.Json
import Elise.Lib.Text

namespace Elise

/-! ### Data of the panel interface (src/panel/types.rs) -/

/-- Upload or download. -/
inductive Direction where
  | up
  | down
  deriving DecidableEq, Repr

/-- The component of a pair of counters for a direction. -/
def Direction.pick {α : Type*} (dir : Direction) (p : α × α) : α :=
  match dir with
  | up => p.1
  | down => p.2

structure TrafficItem where
  userId : UInt32
  u : UInt64
  d : UInt64
  deriving DecidableEq, Repr

/-- The bytes of an item in one direction. -/
def TrafficItem.bytes (item : TrafficItem) (dir : Direction) : Nat :=
  (dir.pick (item.u, item.d)).toNat

/-- The bytes a list of items holds for a user in one direction. -/
def itemBytes (items : List TrafficItem) (user : UInt32) (dir : Direction) : Nat :=
  (items.map fun item => if item.userId = user then item.bytes dir else 0).sum

structure OnlineDeviceItem where
  userId : UInt32
  ips : List String
  deriving DecidableEq, Repr

/-- A panel user, as far as `sync_users` reads it. -/
structure User where
  id : UInt32
  speedLimit : UInt64
  deviceLimit : UInt32
  deriving DecidableEq, Repr

/-- A panel user with what the protocols read. -/
structure PanelUser extends User where
  uuid : List Char
  password : Option (List Char)
  method : Option (List Char)
  port : Option UInt16
  flow : Option (List Char)
  deriving DecidableEq, Repr

/-- `User::default()`. -/
def PanelUser.default : PanelUser := ⟨⟨0, 0, 0⟩, [], none, none, none, none⟩

/-! ### HTTP -/

/-- Status codes are three-digit numbers (crate `http`). -/
structure StatusCode where
  code : Nat
  three_digits : 100 ≤ code ∧ code < 1000
  deriving DecidableEq

def StatusCode.ok : StatusCode := ⟨200, by decide⟩

def StatusCode.internalServerError : StatusCode := ⟨500, by decide⟩

def StatusCode.isSuccess (s : StatusCode) : Bool := 200 ≤ s.code && s.code < 300

def StatusCode.isClientError (s : StatusCode) : Bool := 400 ≤ s.code && s.code < 500

def StatusCode.isServerError (s : StatusCode) : Bool := 500 ≤ s.code && s.code < 600

/-- What becomes of a request: a transport error (a time-out included), or a
response with a status and a body that is JSON or not. -/
inductive Answer where
  | error
  | response (status : StatusCode) (body : Option Json)

/-- The request was answered with a success status. -/
def Answer.isSuccess : Answer → Bool
  | error => false
  | response status _ => status.isSuccess

inductive Method where
  | get
  | post
  deriving DecidableEq, Repr

/-- An entry of the traffic list of the official PPanel endpoint. -/
structure PPanelTraffic where
  uid : UInt32
  upload : UInt64
  download : UInt64
  deriving DecidableEq, Repr

/-- The JSON payloads of a traffic report, before serialisation. -/
inductive Payload where
  | empty
  /-- A map from the decimal user id to `[u, d]`. -/
  | byUser (m : AssocMap String (UInt64 × UInt64))
  /-- A list of `uid`, `upload`, `download` under the key `traffic`. -/
  | traffic (entries : List PPanelTraffic)
  /-- The items as they are. -/
  | items (items : List TrafficItem)

structure Request where
  method : Method
  url : String
  query : List (String × String)
  payload : Payload

/-- The entries of a payload for a user. -/
def Payload.entries (p : Payload) (user : UInt32) : List (UInt64 × UInt64) :=
  match p with
  | empty => []
  | byUser m => (m.get user.toNat.repr).toList
  | traffic es => (es.filter fun e => e.uid = user).map fun e => (e.upload, e.download)
  | items is => (is.filter fun i => i.userId = user).map fun i => (i.u, i.d)

/-- The bytes a payload carries for a user in one direction. -/
def Payload.carried (p : Payload) (user : UInt32) (dir : Direction) : Nat :=
  ((p.entries user).map fun e => (dir.pick e).toNat).sum

inductive PanelError where
  | transport
  | status (context : String) (status : StatusCode)
  | decode

/-- A client call: send requests and return. -/
inductive Exchange (α : Type) where
  | done (a : α)
  | send (req : Request) (k : Answer → Exchange α)

/-- The result of `report_traffic`. -/
abbrev ReportResult := Except PanelError Unit

/-! ### `report_traffic` of the five clients -/

/-- Base URL and server token of a client. -/
structure Endpoint where
  baseUrl : String
  token : String

/-- The payload shared by the Xboard family: user id to `[u, d]`. -/
def payloadByUser (traffic : List TrafficItem) : Payload :=
  .byUser (AssocMap.ofPairs (traffic.map fun item => (item.userId.toNat.repr, (item.u, item.d))))

/-- `report_traffic` of Xboard, V2Board and XiaoV2Board: one POST, accepted
on a success status only. -/
def pushByUser (url : String) (query : List (String × String)) (context : String)
    (traffic : List TrafficItem) : Exchange ReportResult :=
  if traffic.isEmpty then .done (.ok ())
  else
    .send ⟨.post, url, query, payloadByUser traffic⟩ fun
      | .error => .done (.error .transport)
      | .response status _ =>
          if !status.isSuccess then .done (.error (.status context status))
          else .done (.ok ())

def XboardClient.reportTraffic (c : Endpoint) (nodeId : UInt32)
    (traffic : List TrafficItem) : Exchange ReportResult :=
  pushByUser
    (c.baseUrl ++ "/api/v1/server/UniProxy/push?node_id=" ++ nodeId.toNat.repr
      ++ "&token=" ++ c.token) []
    "Xboard API traffic report returned status" traffic

def V2BoardClient.reportTraffic (c : Endpoint) (nodeId : UInt32)
    (traffic : List TrafficItem) : Exchange ReportResult :=
  pushByUser
    (c.baseUrl ++ "/api/v1/server/UniProxy/push?node_type=v2node&node_id=" ++ nodeId.toNat.repr
      ++ "&token=" ++ c.token) []
    "V2Board API traffic report returned status" traffic

/-- XiaoV2Board leaves the query to the HTTP client, which escapes it. -/
def XiaoV2BoardClient.reportTraffic (c : Endpoint) (nodeId : UInt32)
    (traffic : List TrafficItem) : Exchange ReportResult :=
  pushByUser (c.baseUrl ++ "/api/v1/server/UniProxy/push")
    [("node_type", "v2node"), ("node_id", nodeId.toNat.repr), ("token", c.token)]
    "XiaoV2Board API traffic report returned status" traffic

/-- PPanel posts to the official endpoint and, unless that answers with a
success status, to the fallback endpoint, whose answer it does not read. -/
def PPanelClient.reportTraffic (c : Endpoint) (nodeId : UInt32)
    (traffic : List TrafficItem) : Exchange ReportResult :=
  if traffic.isEmpty then .done (.ok ())
  else
    let officialUrl := c.baseUrl ++ "/v1/server/push?server_id=" ++ nodeId.toNat.repr
      ++ "&secret_key=" ++ c.token
    let payload := Payload.traffic (traffic.map fun t => ⟨t.userId, t.u, t.d⟩)
    let fallbackUrl := c.baseUrl ++ "/api/v1/server/nodes/" ++ nodeId.toNat.repr
      ++ "/traffic?token=" ++ c.token
    .send ⟨.post, officialUrl, [], payload⟩ fun answer =>
      if answer.isSuccess then .done (.ok ())
      else .send ⟨.post, fallbackUrl, [], .items traffic⟩ fun _ => .done (.ok ())

/-- SSPanel refuses a client or server error status (`error_for_status`). -/
def SSPanelClient.reportTraffic (c : Endpoint) (nodeId : UInt32)
    (traffic : List TrafficItem) : Exchange ReportResult :=
  .send ⟨.post, c.baseUrl ++ "/mod_mu/users/traffic?node_id=" ++ nodeId.toNat.repr
      ++ "&key=" ++ c.token, [], .items traffic⟩ fun
    | .error => .done (.error .transport)
    | .response status _ =>
        if status.isClientError || status.isServerError then
          .done (.error (.status "HTTP status" status))
        else .done (.ok ())

/-- The clients `create_panel_client` chooses from. -/
inductive PanelClient where
  | xboard (c : Endpoint)
  | v2board (c : Endpoint)
  | xiaoV2board (c : Endpoint)
  | ppanel (c : Endpoint)
  | sspanel (c : Endpoint)

def PanelClient.reportTraffic : PanelClient → UInt32 → List TrafficItem → Exchange ReportResult
  | xboard c => XboardClient.reportTraffic c
  | v2board c => V2BoardClient.reportTraffic c
  | xiaoV2board c => XiaoV2BoardClient.reportTraffic c
  | ppanel c => PPanelClient.reportTraffic c
  | sspanel c => SSPanelClient.reportTraffic c

/-! ### Reading the list -/

/-- `str::parse::<u32>`. -/
def parseU32 (text : String) : Option UInt32 :=
  (Text.parseUnsigned 0xFFFFFFFF text.toList).map UInt32.ofNat

/-- A member that counts: its key is a number and its value an unsigned
integer, cut to 32 bits. -/
def aliveEntry (member : String × Json) : Option (UInt32 × UInt32) :=
  match parseU32 member.1, member.2.asU64 with
  | some uid, some cnt => some (uid, cnt.toUInt32)
  | _, _ => none

/-- The map that the members of an object make; the others are skipped. -/
def aliveMap (obj : Json) : AssocMap UInt32 UInt32 :=
  match obj.asObject with
  | some members => AssocMap.ofPairs (members.filterMap aliveEntry)
  | none => ∅

/-- The result of `get_user_alivelist`. -/
abbrev AliveResult := Except PanelError (AssocMap UInt32 UInt32)

/-- The shared body: one GET, `select` picks the object, `onFailure` is what
becomes of a failure. -/
def fetchAlive (req : Request) (context : String) (onFailure : PanelError → AliveResult)
    (select : Json → Json) : Exchange AliveResult :=
  .send req fun
    | .error => .done (onFailure .transport)
    | .response status body =>
        if !status.isSuccess then .done (onFailure (.status context status))
        else
          match body with
          | none => .done (onFailure .decode)
          | some val => .done (.ok (aliveMap (select val)))

/-- `val.get("data")`, or the body itself. -/
def dataOrBare (val : Json) : Json := (val.get "data").getD val

/-- `val.get("alive")`, then `val.get("data")`, or the body itself. -/
def aliveOrDataOrBare (val : Json) : Json := (val.get "alive").getD (dataOrBare val)

def XboardClient.getUserAlivelist (c : Endpoint) (nodeId : UInt32) : Exchange AliveResult :=
  fetchAlive ⟨.get, c.baseUrl ++ "/api/v1/server/UniProxy/alivelist?node_id=" ++ nodeId.toNat.repr
      ++ "&token=" ++ c.token, [], .empty⟩
    "" (fun _ => .ok ∅) dataOrBare

def V2BoardClient.getUserAlivelist (c : Endpoint) (nodeId : UInt32) : Exchange AliveResult :=
  fetchAlive ⟨.get, c.baseUrl ++ "/api/v1/server/UniProxy/alivelist?node_type=v2node&node_id="
      ++ nodeId.toNat.repr ++ "&token=" ++ c.token, [], .empty⟩
    "" (fun _ => .ok ∅) aliveOrDataOrBare

def XiaoV2BoardClient.getUserAlivelist (c : Endpoint) (nodeId : UInt32) : Exchange AliveResult :=
  fetchAlive ⟨.get, c.baseUrl ++ "/api/v1/server/UniProxy/alivelist",
      [("node_type", "v2node"), ("node_id", nodeId.toNat.repr), ("token", c.token)], .empty⟩
    "XiaoV2Board API alive list returned status" .error aliveOrDataOrBare

def PPanelClient.getUserAlivelist (c : Endpoint) (nodeId : UInt32) : Exchange AliveResult :=
  fetchAlive ⟨.get, c.baseUrl ++ "/v1/server/alivelist?server_id=" ++ nodeId.toNat.repr
      ++ "&secret_key=" ++ c.token, [], .empty⟩
    "" (fun _ => .ok ∅) aliveOrDataOrBare

def PanelClient.getUserAlivelist : PanelClient → UInt32 → Exchange AliveResult
  | xboard c => XboardClient.getUserAlivelist c
  | v2board c => V2BoardClient.getUserAlivelist c
  | xiaoV2board c => XiaoV2BoardClient.getUserAlivelist c
  | ppanel c => PPanelClient.getUserAlivelist c
  | sspanel _ => fun _ => .done (.ok ∅)

/-- The client has its own `get_user_alivelist`. -/
def PanelClient.implementsAlivelist : PanelClient → Bool
  | sspanel _ => false
  | _ => true

/-- The object a client reads of a body. -/
def PanelClient.selectAlive : PanelClient → Json → Json
  | xboard _ => dataOrBare
  | _ => aliveOrDataOrBare

/-- Run a call whose requests are all answered with `a`. -/
def Exchange.answered {α : Type} (a : Answer) : Exchange α → α
  | done x => x
  | send _ k => (k a).answered a

/-! ### What an alive list is -/

/-- The user a key stands for: the key is the decimal text of a user id. -/
def userIdOf (key : String) : Option UInt32 :=
  (parseU32 key).filter fun uid => uid.toNat.repr = key

/-- A well-formed member: a user id and a count. -/
def countEntry (member : String × Json) : Option (UInt32 × UInt64) :=
  (userIdOf member.1).bind fun uid => member.2.asU64.map fun cnt => (uid, cnt)

/-- The counts of a body: an object of user id to count, under `alive`, under
`data` or bare. -/
def wellFormedCounts (val : Json) : Option (List (UInt32 × UInt64)) :=
  (aliveOrDataOrBare val).asObject.bind fun members => members.mapM countEntry

end Elise
