import Defib.Framework.Dict
import Defib.Power.RouterOs

/-!
# The PoE controller

`RouterOSController` reads and sets the `poe-out` of an interface with two commands of the RouterOS
API, and remembers what it was when it turns a port off.

The switch is a list of interfaces.  It carries out a command and answers it, or refuses it with a
`!trap`, or the exchange raises; a `set` that fails leaves the switch as it is.

The controller keeps one connection.  A response ends with the first `!done` or `!trap` that comes,
so the `!done` behind a `!trap` is still there when the next command is answered.
-/

namespace Defib

namespace RouterOs

/-! ## Responses -/

/-- `_extract_attr`. -/
def extractAttr (sentence : List Text) (key : Text) : Option Text :=
  let start := '=' :: key ++ ['=']
  (sentence.find? start.isPrefixOf).map (List.drop start.length)

/-- The attributes of a `!re` sentence. -/
def parseItem (words : List Text) : Dict Text Text :=
  words.foldl (fun item word =>
    if word.head? = some '=' ∧ '=' ∈ word.tail then
      Dict.set item (word.tail.takeWhile (· ≠ '=')) ((word.tail.dropWhile (· ≠ '=')).drop 1)
    else item) []

/-- `_parse_items`. -/
def parseItems (response : List (List Text)) : List (Dict Text Text) :=
  response.filterMap fun sentence =>
    if sentence.head? = some reWord then some (parseItem sentence.tail) else none

/-! ## The switch -/

def offMode : Text := "off".toList
def forcedOn : Text := "forced-on".toList
def autoOn : Text := "auto-on".toList

/-- An attribute word. -/
def attrWord (key value : Text) : Text := '=' :: key ++ '=' :: value

def idKey : Text := ".id".toList
def poeOutKey : Text := "poe-out".toList

/-- An interface. -/
structure PoePort where
  id : Text
  name : Text
  poeOut : Text
  deriving DecidableEq

/-- The interface once the `poe-out` of an id has been set. -/
def PoePort.set (id mode : Text) (q : PoePort) : PoePort :=
  if q.id = id then { q with poeOut := mode } else q

@[simp] lemma PoePort.set_id (id mode : Text) (q : PoePort) : (q.set id mode).id = q.id := by
  rw [PoePort.set]
  split
  · rfl
  · rfl

@[simp] lemma PoePort.set_name (id mode : Text) (q : PoePort) : (q.set id mode).name = q.name := by
  rw [PoePort.set]
  split
  · rfl
  · rfl

/-- The interfaces of a switch; ids and names are unique. -/
structure PoeSwitch where
  ports : List PoePort
  id_ne_nil : ∀ q ∈ ports, q.id ≠ []
  ids_nodup : (ports.map PoePort.id).Nodup
  names_nodup : (ports.map PoePort.name).Nodup

/-- The sentence that describes an interface. -/
def PoePort.sentence (q : PoePort) : List Text :=
  [reWord, attrWord idKey q.id, attrWord "name".toList q.name, attrWord poeOutKey q.poeOut]

namespace PoeSwitch

variable (sw : PoeSwitch)

/-- The interface of a name. -/
def find (name : Text) : Option PoePort := sw.ports.find? fun q => q.name = name

/-- The mode of a port. -/
def poeOut (name : Text) : Option Text := (sw.find name).map PoePort.poeOut

/-- The answer to `/interface/ethernet/poe/print` with `?name=`. -/
def print (name : Text) : List (List Text) :=
  (sw.ports.filter fun q => q.name = name).map PoePort.sentence ++ [[doneWord]]

/-- The answer to `/interface/ethernet/poe/set`. -/
def setAnswer (id : Text) : List (List Text) :=
  if id ∈ sw.ports.map PoePort.id then [[doneWord]]
  else [[trapWord, attrWord "message".toList "no such item".toList], [doneWord]]

/-- What `/interface/ethernet/poe/set` does to the switch. -/
def set (id mode : Text) : PoeSwitch where
  ports := sw.ports.map (PoePort.set id mode)
  id_ne_nil := by
    intro q hq
    obtain ⟨q₀, hq₀, rfl⟩ := List.mem_map.mp hq
    rw [PoePort.set_id]
    exact sw.id_ne_nil q₀ hq₀
  ids_nodup := by
    have hkept : PoePort.id ∘ PoePort.set id mode = PoePort.id :=
      funext (PoePort.set_id id mode)
    rw [List.map_map, hkept]
    exact sw.ids_nodup
  names_nodup := by
    have hkept : PoePort.name ∘ PoePort.set id mode = PoePort.name :=
      funext (PoePort.set_name id mode)
    rw [List.map_map, hkept]
    exact sw.names_nodup

end PoeSwitch

/-! ## The connection -/

/-- `_conn`: none, one with the sentences that have come and are not read, or one that is lost. -/
inductive PoeConn
  | closed
  | opened (unread : List (List Text))
  | lost
  deriving DecidableEq

/-- What becomes of a command: the switch answers it or refuses it, or the exchange raises before
the switch has it, with the connection lost or not. -/
inductive Reaction
  | answered
  | refused (attributes : List Text)
  | raised (e : RouterError) (lost : Bool)
  deriving DecidableEq

/-- A sentence that ends a response. -/
def endsResponse (sentence : List Text) : Bool :=
  sentence.head? = some doneWord || sentence.head? = some trapWord

/-- `read_response`, on sentences: the response, and what stays unread. -/
def takeResponse : List (List Text) → List (List Text) × List (List Text)
  | [] => ([], [])
  | sentence :: sentences =>
      if endsResponse sentence then ([sentence], sentences)
      else (sentence :: (takeResponse sentences).1, (takeResponse sentences).2)

/-- The sentences that have come and are not read. -/
def PoeConn.unread : PoeConn → List (List Text)
  | opened unread => unread
  | _ => []

/-- The response that is read once more sentences have come. -/
def PoeConn.read (conn : PoeConn) (answer : List (List Text)) :
    Except RouterError (List (List Text)) × PoeConn :=
  (.ok (takeResponse (conn.unread ++ answer)).1,
    .opened (takeResponse (conn.unread ++ answer)).2)

/-- `call`, on a connection that `_connect` makes if there is none. -/
def PoeConn.call : PoeConn → Reaction → List (List Text) →
    Except RouterError (List (List Text)) × PoeConn
  | lost, _, _ => (.error .incompleteRead, lost)
  | conn, .raised e isLost, _ => (.error e, if isLost then lost else conn)
  | conn, .answered, answer => conn.read answer
  | conn, .refused attributes, _ => conn.read [trapWord :: attributes, [doneWord]]

/-! ## The primitives -/

/-- The controller and the switch. -/
structure PoeControl where
  saved : Dict Text Text
  conn : PoeConn
  switch : PoeSwitch

/-- A controller that has just been made. -/
def PoeControl.new (sw : PoeSwitch) : PoeControl := ⟨[], .closed, sw⟩

/-- `_get_poe_out`, on the response. -/
def poeOutOf (response : List (List Text)) : Text :=
  match parseItems response with
  | [] => autoOn
  | item :: _ => (item.get? poeOutKey).getD autoOn

/-- `_get_poe_out`. -/
def PoeControl.getPoeOut (s : PoeControl) (x : Reaction) (name : Text) :
    Except RouterError Text × PoeControl :=
  let response := s.conn.call x (s.switch.print name)
  (response.1.map poeOutOf, { s with conn := response.2 })

/-- `_set_poe`, up to where the id is known. -/
def portId (name : Text) (response : List (List Text)) : Except RouterError Text :=
  match parseItems response with
  | [] => .error (.controller (String.ofList
      ("PoE interface '".toList ++ name ++ "' not found on switch".toList)))
  | item :: _ =>
      match item.get? idKey with
      | none | some [] => .error (.controller (String.ofList
          ("No .id for interface '".toList ++ name ++ "'".toList)))
      | some id => .ok id

/-- `_set_poe`, on the response to the second command. -/
def checkSet (name mode : Text) (response : List (List Text)) : Except RouterError Unit :=
  match response.find? fun sentence => sentence.head? = some trapWord with
  | none => .ok ()
  | some sentence =>
      let msg := match extractAttr sentence "message".toList with
        | none | some [] => "unknown error".toList
        | some msg => msg
      .error (.controller (String.ofList ("Failed to set poe-out=".toList ++ mode ++
        " on ".toList ++ name ++ ": ".toList ++ msg)))

/-- `_set_poe`. -/
def PoeControl.setPoe (s : PoeControl) (print set : Reaction) (name mode : Text) :
    Except RouterError Unit × PoeControl :=
  let printed := s.conn.call print (s.switch.print name)
  match printed.1.bind (portId name) with
  | .error e => (.error e, { s with conn := printed.2 })
  | .ok id =>
      let answered := printed.2.call set (s.switch.setAnswer id)
      (answered.1.bind (checkSet name mode),
        { s with
          conn := answered.2
          -- the switch carries a command out whether or not its answer is the one that is read
          switch := if set = .answered ∧ printed.2 ≠ .lost then s.switch.set id mode
            else s.switch })

/-! ## The controller -/

/-- The exchanges of a call: of `_get_poe_out`, and the two of `_set_poe`. -/
structure CallExchanges where
  get : Reaction
  print : Reaction
  set : Reaction
  deriving DecidableEq

/-- `power_off` up to where the port is in `self._saved_poe_out`. -/
def PoeControl.save (s : PoeControl) (x : CallExchanges) (port : Text) :
    Except RouterError Unit × PoeControl :=
  match s.saved.get? port with
  | some _ => (.ok (), s)
  | none =>
      match s.getPoeOut x.get port with
      | (.error e, s) => (.error e, s)
      | (.ok mode, s) => (.ok (), { s with saved := s.saved.set port mode })

/-- `power_off`. -/
def PoeControl.powerOff (s : PoeControl) (x : CallExchanges) (port : Text) :
    Except RouterError Unit × PoeControl :=
  match s.save x port with
  | (.error e, s) => (.error e, s)
  | (.ok (), s) => s.setPoe x.print x.set port offMode

/-- A mode in which the port is powered. -/
def promote (mode : Text) : Text := if mode = offMode then forcedOn else mode

/-- `power_on`. -/
def PoeControl.powerOn (s : PoeControl) (x : CallExchanges) (port : Text) :
    Except RouterError Unit × PoeControl :=
  let restoreMode := (s.saved.get? port).getD forcedOn
  { s with saved := s.saved.del port }.setPoe x.print x.set port (promote restoreMode)

/-- A call. -/
inductive PowerCall
  | powerOff (port : Text) (x : CallExchanges)
  | powerOn (port : Text) (x : CallExchanges)
  | close
  deriving DecidableEq

/-- What a call does. -/
def PoeControl.call (s : PoeControl) : PowerCall → Except RouterError Unit × PoeControl
  | .powerOff port x => s.powerOff x port
  | .powerOn port x => s.powerOn x port
  | .close => (.ok (), { s with conn := .closed })

end RouterOs

end Defib
