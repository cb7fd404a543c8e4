import VissServer.Feeder.DomainConversion
import VissServer.Library.Pipelines

/-!
The goroutines of the feeder and the channels between them, each of which has room for one
domain data (feederv2.go). What the server writes to the socket, the order in which ready
channels are selected, the random numbers and the order of the maps are not restricted.
-/
namespace VissServer.Feeder.Processes

open Go Runs Pipelines

structure Config where
  numbers : ExactNumbers
  stateDbType : StateDbType
  feederMap : List MapElement
  scalingDataList : List GoString

/-- Where initUdsEndpoint is. -/
inductive Endpoint
  | accepting
  | reading
  | sending (domainData : DomainData)
  deriving DecidableEq

/-- Where initVSSInterfaceMgr is. -/
inductive VssMgr
  | select
  | sending (actuatorData : DomainData)
  deriving DecidableEq

/-- Where the loop of main is. -/
inductive Hub
  | select
  | toVehicle (outData : DomainData)
  | toVss (outData : DomainData)
  deriving DecidableEq

/-- Where initVehicleInterfaceMgr is: at its select, asleep in the default branch of it, in the
search of getRandomVssfMapIndex, or at its send. -/
inductive VehicleMgr
  | select
  | asleep
  | searching (signalIndex : ℕ)
  | sending (input : DomainData)
  deriving DecidableEq

structure SimulateDataCtx where
  /-- Random signals, or a stepwise change of the signal that was written. -/
  randomSim : Bool := true
  path : GoString := []
  setVal : GoString := []
  iteration : ℕ := 0
  deriving DecidableEq

structure Network where
  endpoint : Endpoint
  udsChan : Option DomainData
  vssMgr : VssMgr
  vssInputChan : Option DomainData
  vssOutputChan : Option DomainData
  hub : Hub
  vehicleInputChan : Option DomainData
  vehicleOutputChan : Option DomainData
  vehicleMgr : VehicleMgr
  simCtx : SimulateDataCtx
  storage : StateStorage
  ended : Bool

def initialNetwork (storage : StateStorage) : Network where
  endpoint := .accepting
  udsChan := none
  vssMgr := .select
  vssInputChan := none
  vssOutputChan := none
  hub := .select
  vehicleInputChan := none
  vehicleOutputChan := none
  vehicleMgr := .select
  simCtx := {}
  storage := storage
  ended := false

/-- The steps of the network. -/
inductive Event
  | accept
  /-- The endpoint reads what the server has written. -/
  | read (serverMessage : GoString)
  /-- The endpoint sends on udsChan. -/
  | queue
  /-- The VSS interface manager takes from udsChan. -/
  | takeActuator
  /-- The VSS interface manager sends on its input channel. -/
  | sendActuator
  /-- The VSS interface manager takes from its output channel. -/
  | store (ts : RfcTime)
  /-- The loop of main takes from the input channel of the VSS interface, and converts. -/
  | takeVssInput (order : MapOrder)
  | sendVehicleOutput
  /-- The loop of main takes from the input channel of the vehicle interface, and converts. -/
  | takeVehicleInput (order : MapOrder)
  | sendVssOutput
  /-- The vehicle interface manager takes from its output channel. -/
  | call
  /-- Nothing is in its output channel. -/
  | default
  /-- The sleep is over; a random index is drawn where signals are random. -/
  | simulate (signalIndex : ℕ)
  /-- One turn of the search, or its end with a random value. -/
  | search (value : ℕ)
  /-- The vehicle interface manager sends on its input channel. -/
  | sendInput

/-- What a step does to domain data. -/
inductive Output
  | silent
  | received (domainData : DomainData)
  | stored (outData : DomainData)
  | converted (north2SouthConv : Bool) (inData outData : DomainData)
  | called (outData : DomainData)
  | simulated (input : DomainData)

def calcInputValue (iteration : ℕ) (setValue : GoString) : GoString :=
  itoa (wrapInt64 (wrapInt64 (atoiIgnoringError setValue - 10) + iteration))

/-- simulateInput after a signal was written. -/
def simulateStepwise (simCtx : SimulateDataCtx) : DomainData × SimulateDataCtx :=
  (⟨simCtx.path, calcInputValue simCtx.iteration simCtx.setVal⟩,
    { simCtx with
      randomSim := simCtx.randomSim || simCtx.iteration = 10
      iteration := simCtx.iteration + 1 })

/-- The bound of the random value of a signal. -/
def randomBound (datatype : Int8) : ℕ :=
  if datatype = 0 then 10 else if datatype = 9 then 90 else if datatype = 10 then 2 else 1000

/-- The names that the search for a vehicle signal passes over. -/
def Dotted (e : MapElement) : Prop := contains e.name (str ".") = true

instance (e : MapElement) : Decidable (Dotted e) := inferInstanceAs (Decidable (_ = _))

section Steps

variable (cfg : Config)

/-- The loop of main with domain data that it takes; a step that ends the process changes
nothing else. -/
def convert (order : MapOrder) (north2SouthConv : Bool) (inData : DomainData) (x : Network)
    (taken : DomainData → Network) : Network × Output :=
  match convertDomainData cfg.numbers order cfg.scalingDataList north2SouthConv inData
      cfg.feederMap with
  | none => ({ x with ended := true }, .silent)
  | some outData => (taken outData, .converted north2SouthConv inData outData)

/-- simulateInput; an index is drawn from a map that is not empty. -/
def simulateInput (signalIndex : ℕ) (x : Network) : Option (Network × Output) :=
  if x.simCtx.randomSim then
    if cfg.feederMap = [] then some ({ x with ended := true }, .silent)
    else if signalIndex < cfg.feederMap.length then
      some ({ x with vehicleMgr := .searching signalIndex }, .silent)
    else none
  else
    let (input, simCtx) := simulateStepwise x.simCtx
    some ({ x with vehicleMgr := .sending input, simCtx }, .simulated input)

/-- A turn of getRandomVssfMapIndex, or the rest of selectRandomInput. The index is taken modulo
the length less one, which a map of one element divides by zero. -/
def selectRandomInput (signalIndex value : ℕ) (x : Network) : Option (Network × Output) :=
  match cfg.feederMap[signalIndex]? with
  | none => some ({ x with ended := true }, .silent)
  | some e =>
      if Dotted e then
        if cfg.feederMap.length - 1 = 0 then some ({ x with ended := true }, .silent)
        else
          let signalIndex := (signalIndex + 1) % (cfg.feederMap.length - 1)
          some ({ x with vehicleMgr := .searching signalIndex }, .silent)
      else if value < randomBound e.datatype then
        let input : DomainData := ⟨e.name, itoa value⟩
        some ({ x with vehicleMgr := .sending input }, .simulated input)
      else none

/-- A step, possible where its goroutine is at it and the channel has a domain data, or room
for one. -/
def meet (x : Network) : Event → Option (Network × Output)
  | .accept =>
      match x.endpoint with
      | .accepting => some ({ x with endpoint := .reading }, .silent)
      | _ => none
  | .read serverMessage =>
      match x.endpoint with
      | .reading =>
          -- the buffer has 512 bytes
          if 512 < serverMessage.length then none
          else match splitToDomainDataAndTs serverMessage with
            | none => some ({ x with ended := true }, .silent)
            | some (domainData, _) =>
                some ({ x with endpoint := .sending domainData }, .received domainData)
      | _ => none
  | .queue =>
      match x.endpoint, x.udsChan with
      | .sending domainData, none =>
          some ({ x with endpoint := .reading, udsChan := some domainData }, .silent)
      | _, _ => none
  | .takeActuator =>
      match x.vssMgr, x.udsChan with
      | .select, some actuatorData =>
          some ({ x with vssMgr := .sending actuatorData, udsChan := none }, .silent)
      | _, _ => none
  | .sendActuator =>
      match x.vssMgr, x.vssInputChan with
      | .sending actuatorData, none =>
          some ({ x with vssMgr := .select, vssInputChan := some actuatorData }, .silent)
      | _, _ => none
  | .store ts =>
      match x.vssMgr, x.vssOutputChan with
      | .select, some outData =>
          let (storage, _) :=
            statestorageSet cfg.stateDbType x.storage outData.name outData.value ts.text
          some ({ x with vssOutputChan := none, storage }, .stored outData)
      | _, _ => none
  | .takeVssInput order =>
      match x.hub, x.vssInputChan with
      | .select, some vssInData =>
          some (convert cfg order true vssInData x fun outData =>
            { x with hub := .toVehicle outData, vssInputChan := none })
      | _, _ => none
  | .sendVehicleOutput =>
      match x.hub, x.vehicleOutputChan with
      | .toVehicle outData, none =>
          some ({ x with hub := .select, vehicleOutputChan := some outData }, .silent)
      | _, _ => none
  | .takeVehicleInput order =>
      match x.hub, x.vehicleInputChan with
      | .select, some vehicleInData =>
          some (convert cfg order false vehicleInData x fun outData =>
            { x with hub := .toVss outData, vehicleInputChan := none })
      | _, _ => none
  | .sendVssOutput =>
      match x.hub, x.vssOutputChan with
      | .toVss outData, none =>
          some ({ x with hub := .select, vssOutputChan := some outData }, .silent)
      | _, _ => none
  | .call =>
      match x.vehicleMgr, x.vehicleOutputChan with
      | .select, some outData =>
          let simCtx :=
            { randomSim := false, path := outData.name, setVal := outData.value, iteration := 0 }
          some ({ x with vehicleOutputChan := none, simCtx }, .called outData)
      | _, _ => none
  | .default =>
      match x.vehicleMgr, x.vehicleOutputChan with
      | .select, none => some ({ x with vehicleMgr := .asleep }, .silent)
      | _, _ => none
  | .simulate signalIndex =>
      match x.vehicleMgr with
      | .asleep => simulateInput cfg signalIndex x
      | _ => none
  | .search value =>
      match x.vehicleMgr with
      | .searching signalIndex => selectRandomInput cfg signalIndex value x
      | _ => none
  | .sendInput =>
      match x.vehicleMgr, x.vehicleInputChan with
      | .sending input, none =>
          some ({ x with vehicleMgr := .select, vehicleInputChan := some input }, .silent)
      | _, _ => none

def networkStep (x : Network) (e : Event) : Option (Network × Output) :=
  if x.ended then none else meet cfg x e

end Steps

def Started (x : Network) : Prop := ∃ storage, x = initialNetwork storage

abbrev NetworkHistory := History Network Event Output

abbrev NetworkRun (cfg : Config) (h : NetworkHistory) (x : Network) : Prop :=
  Run (networkStep cfg) Started h x

/-- A run, given by its events and a property of its end. -/
theorem exists_networkRun (cfg : Config) (storage : StateStorage) (es : List Event)
    (p : NetworkHistory → Network → Prop)
    (hes : ∃ r ∈ replay (networkStep cfg) [] (initialNetwork storage) es, p r.1 r.2) :
    ∃ h x, NetworkRun cfg h x ∧ p h x := by
  obtain ⟨⟨h, x⟩, hr, hp⟩ := hes
  exact ⟨h, x, Run.of_replay (.start ⟨storage, rfl⟩) hr, hp⟩

/-! ## What passes through the feeder -/

/-- A datum that a conversion makes of another one, in some order of the maps. -/
def Converted (cfg : Config) (north2SouthConv : Bool) (inData outData : DomainData) : Prop :=
  ∃ order, convertDomainData cfg.numbers order cfg.scalingDataList north2SouthConv inData
    cfg.feederMap = some outData

namespace Output

@[simp] def received? : Output → List DomainData
  | .received domainData => [domainData]
  | _ => []

@[simp] def stored? : Output → List DomainData
  | .stored outData => [outData]
  | _ => []

@[simp] def called? : Output → List DomainData
  | .called outData => [outData]
  | _ => []

@[simp] def simulated? : Output → List DomainData
  | .simulated input => [input]
  | _ => []

/-- What the loop of main takes in one direction. -/
@[simp] def taken? (north2SouthConv : Bool) : Output → List DomainData
  | .converted b inData _ => if b = north2SouthConv then [inData] else []
  | _ => []

@[simp] def converted? (north2SouthConv : Bool) : Output → List DomainData
  | .converted b _ outData => if b = north2SouthConv then [outData] else []
  | _ => []

end Output

@[simp] def Endpoint.held : Endpoint → List DomainData
  | .sending domainData => [domainData]
  | _ => []

@[simp] def VssMgr.held : VssMgr → List DomainData
  | .sending actuatorData => [actuatorData]
  | _ => []

@[simp] def Hub.toVehicle? : Hub → List DomainData
  | .toVehicle outData => [outData]
  | _ => []

@[simp] def Hub.toVss? : Hub → List DomainData
  | .toVss outData => [outData]
  | _ => []

@[simp] def VehicleMgr.held : VehicleMgr → List DomainData
  | .sending input => [input]
  | _ => []

namespace Network

variable (x : Network)

/-- On the way from the server to the loop of main. -/
@[simp] def fromServer : List DomainData :=
  x.vssInputChan.toList ++ (x.vssMgr.held ++ (x.udsChan.toList ++ x.endpoint.held))

@[simp] def toVehicle : List DomainData := x.vehicleOutputChan.toList ++ x.hub.toVehicle?

@[simp] def fromVehicle : List DomainData := x.vehicleInputChan.toList ++ x.vehicleMgr.held

@[simp] def toStorage : List DomainData := x.vssOutputChan.toList ++ x.hub.toVss?

end Network

/-- What the server has sent, in a history. -/
def received (h : NetworkHistory) : List DomainData := passed (fun x => x.output.received?) h

def called (h : NetworkHistory) : List DomainData := passed (fun x => x.output.called?) h

def simulated (h : NetworkHistory) : List DomainData := passed (fun x => x.output.simulated?) h

def stored (h : NetworkHistory) : List DomainData := passed (fun x => x.output.stored?) h

section Passing

variable {cfg : Config} {x : Network} {e : Event} {x' : Network} {o : Output}

/-- The items that a step passes on, in both directions. -/
structure Passes (cfg : Config) (x : Network) (o : Output) (x' : Network) : Prop where
  fromServer : x.fromServer ++ o.received? = o.taken? true ++ x'.fromServer
  toVehicle : x.toVehicle ++ o.converted? true = o.called? ++ x'.toVehicle
  fromVehicle : x.fromVehicle ++ o.simulated? = o.taken? false ++ x'.fromVehicle
  toStorage : x.toStorage ++ o.converted? false = o.stored? ++ x'.toStorage
  converted : ∀ b, List.Forall₂ (Converted cfg b) (o.taken? b) (o.converted? b)

theorem Passes.ends (x : Network) : Passes cfg x .silent { x with ended := true } where
  fromServer := List.append_nil _
  toVehicle := List.append_nil _
  fromVehicle := List.append_nil _
  toStorage := List.append_nil _
  converted _ := .nil

theorem converted_single {b north2SouthConv : Bool} {inData outData : DomainData}
    (h : Converted cfg north2SouthConv inData outData) :
    List.Forall₂ (Converted cfg b) ((Output.converted north2SouthConv inData outData).taken? b)
      ((Output.converted north2SouthConv inData outData).converted? b) := by
  rw [Output.taken?, Output.converted?]
  split
  · next hb =>
    subst hb
    exact .cons h .nil
  · exact .nil

theorem convert_passes {order : MapOrder} {north2SouthConv : Bool} {inData : DomainData}
    {taken : DomainData → Network} (h : convert cfg order north2SouthConv inData x taken = (x', o))
    (htaken : ∀ outData, Converted cfg north2SouthConv inData outData →
      Passes cfg x (.converted north2SouthConv inData outData) (taken outData)) :
    Passes cfg x o x' := by
  unfold convert at h
  split at h
  · obtain ⟨rfl, rfl⟩ := h
    exact .ends x
  · next outData hout =>
    obtain ⟨rfl, rfl⟩ := h
    exact htaken outData ⟨order, hout⟩

theorem simulateInput_passes {signalIndex : ℕ} (hmgr : x.vehicleMgr = .asleep)
    (h : simulateInput cfg signalIndex x = some (x', o)) : Passes cfg x o x' := by
  unfold simulateInput at h
  split at h
  · split at h
    · obtain ⟨rfl, rfl⟩ := h
      exact .ends x
    · split at h
      · obtain ⟨rfl, rfl⟩ := h
        constructor <;> simp [hmgr]
      · cases h
  · obtain ⟨rfl, rfl⟩ := h
    constructor <;> simp [hmgr]

theorem selectRandomInput_passes {signalIndex value : ℕ}
    (hmgr : x.vehicleMgr = .searching signalIndex)
    (h : selectRandomInput cfg signalIndex value x = some (x', o)) : Passes cfg x o x' := by
  unfold selectRandomInput at h
  split at h
  · obtain ⟨rfl, rfl⟩ := h
    exact .ends x
  · split at h
    · split at h
      · obtain ⟨rfl, rfl⟩ := h
        exact .ends x
      · obtain ⟨rfl, rfl⟩ := h
        constructor <;> simp [hmgr]
    · split at h
      · obtain ⟨rfl, rfl⟩ := h
        constructor <;> simp [hmgr]
      · cases h

/-- Each step moves domain data from the head of what one goroutine or channel has to the end of
what the next one has. -/
theorem meet_passes (h : meet cfg x e = some (x', o)) : Passes cfg x o x' := by
  cases e with
  | accept =>
    simp only [meet] at h
    split at h
    · next hendpoint =>
      obtain ⟨rfl, rfl⟩ := h
      constructor <;> simp [hendpoint]
    · cases h
  | read serverMessage =>
    simp only [meet] at h
    split at h
    · next hendpoint =>
      split at h
      · cases h
      · split at h
        · obtain ⟨rfl, rfl⟩ := h
          exact .ends x
        · obtain ⟨rfl, rfl⟩ := h
          constructor <;> simp [hendpoint]
    · cases h
  | takeVssInput order =>
    simp only [meet] at h
    split at h
    · next hhub hchan =>
      refine convert_passes (Option.some.inj h) fun outData hout => ?_
      constructor
      case converted => exact fun b => converted_single hout
      all_goals simp [hhub, hchan]
    · cases h
  | takeVehicleInput order =>
    simp only [meet] at h
    split at h
    · next hhub hchan =>
      refine convert_passes (Option.some.inj h) fun outData hout => ?_
      constructor
      case converted => exact fun b => converted_single hout
      all_goals simp [hhub, hchan]
    · cases h
  | simulate signalIndex =>
    simp only [meet] at h
    split at h
    · next hmgr => exact simulateInput_passes hmgr h
    · cases h
  | search value =>
    simp only [meet] at h
    split at h
    · next signalIndex hmgr => exact selectRandomInput_passes hmgr h
    · cases h
  | queue | takeActuator | sendActuator | store | sendVehicleOutput | sendVssOutput | call
  | default | sendInput =>
    -- one goroutine and one channel
    simp only [meet] at h
    split at h
    · next hgoroutine hchan =>
      obtain ⟨rfl, rfl⟩ := h
      constructor <;> simp [hgoroutine, hchan]
    · cases h

theorem move_passes {m : Move Network Event Output} (h : m.Of (networkStep cfg)) :
    Passes cfg m.before m.output m.after := by
  unfold Move.Of networkStep at h
  split at h
  · cases h
  · exact meet_passes h

end Passing

/-! ## Runs -/

section Running

variable {cfg : Config} {h : NetworkHistory} {x : Network}

end Running

/-- A map of one pair, without a conversion. -/
def pairConfig : Config where
  numbers := decimals
  stateDbType := .redis
  feederMap := [⟨1, str "Vehicle.Speed", 1, 0, 0⟩, ⟨0, str "speed", 1, 0, 0⟩]
  scalingDataList := []

def emptyStorage : StateStorage where
  reachable := true
  vssMap _ := none
  redis _ := none
  iotdb _ := none

def speedMessage : GoString :=
  rawText (str " ") (setMessage (str "Vehicle.Speed") (str "9") (str "Z"))

/-- The server writes the speed, and the vehicle has it called. -/
def speedEvents : List Event :=
  [.accept, .read speedMessage, .queue, .takeActuator, .sendActuator,
    .takeVssInput ⟨id, GoMap.perm_id⟩, .sendVehicleOutput, .call]

/-- The vehicle has sent an input, and the state storage has it stored. -/
def inputEvents : List Event :=
  [.default, .simulate 1, .search 5, .sendInput, .takeVehicleInput ⟨id, GoMap.perm_id⟩,
    .sendVssOutput, .store ⟨str "Z", by decide, by decide⟩]

end VissServer.Feeder.Processes
