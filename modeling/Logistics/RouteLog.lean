import Logistics.Checksum
import Logistics.Reachability
import Logistics.RouteManager

namespace Logistics.RouteLog

open Checksum Reachability List
open RouteManager (Config deliveredText mqttPayloadSize pressDelivered)

structure Route where
  stops : Int → List UInt8
  count : Int
  currentIndex : Int

inductive Document
  | invalid
  | notArray
  | array (items : List (Option (List UInt8)))

variable (cfg : Config)

def slot (name : List UInt8) : List UInt8 := storeField cfg.routeStopNameMax (cString name)

def routeManagerClear : Route := ⟨fun _ => replicate cfg.routeStopNameMax 0, 0, 0⟩

def writeStops (stops : Int → List UInt8) (start : Int) : List (List UInt8) → Int → List UInt8
  | [] => stops
  | name :: names => writeStops (Function.update stops start (slot cfg name)) (start + 1) names

def routeManagerUpdate (names : List (List UInt8)) (s : Route) : Route :=
  let space := (cfg.routeMaxStops : Int) - s.count
  let count := if space < names.length then space else names.length
  { s with stops := writeStops cfg s.stops s.count (names.take count.toNat), count := s.count + count }

def getCurrentStop (s : Route) : Option (List UInt8) :=
  if 0 < s.count ∧ s.currentIndex < s.count then some (s.stops s.currentIndex) else none

def advanceStop (s : Route) : Bool × Route :=
  if 0 < s.count ∧ s.currentIndex < s.count then (true, { s with currentIndex := s.currentIndex + 1 }) else (false, s)

def routeManagerParseJson (document : Document) (s : Route) : Bool × Route :=
  match document with
  | .array [] => (true, routeManagerClear cfg)
  | .array items =>
    let taken := items.take cfg.routeMaxStops
    if taken.all Option.isSome then (true, routeManagerUpdate cfg (taken.filterMap id) s) else (false, s)
  | _ => (false, s)

/-- The text in a slot. One character stands for one byte. -/
def stopName (stop : List UInt8) : String := String.ofList ((cString stop).map fun byte => Char.ofNat byte.toNat)

def currentName (s : Route) : Option String := (getCurrentStop s).map stopName

inductive Event
  | message (document : Document)
  | delivered (published : Bool)

def accept (accepted : List (List UInt8)) : Document → List (List UInt8)
  | .array [] => []
  | .array items =>
    let taken := items.take cfg.routeMaxStops
    if taken.all Option.isSome then accepted ++ (taken.filterMap id).take (cfg.routeMaxStops - accepted.length)
    else accepted
  | _ => accepted

structure Run where
  route : Route
  accepted : List (List UInt8)
  visited : List (List UInt8)

def step (r : Run) : Event → Run
  | .message document =>
    ⟨(routeManagerParseJson cfg document r.route).2, accept cfg r.accepted document,
      if document matches .array [] then [] else r.visited⟩
  | .delivered published =>
    let pressed := pressDelivered currentName advanceStop published r.route
    ⟨pressed.2, r.accepted, r.visited ++ if pressed.1.isSome then (getCurrentStop r.route).toList else []⟩

def run (events : List Event) : Run := events.foldl (step cfg) ⟨routeManagerClear cfg, [], []⟩

structure Represents (r : Run) : Prop where
  count : r.route.count = r.accepted.length
  bounded : r.accepted.length ≤ cfg.routeMaxStops
  stored : ∀ (k : Nat) name, r.accepted[k]? = some name → r.route.stops k = slot cfg name
  index : r.route.currentIndex = r.visited.length
  visited : r.visited <+: r.accepted.map (slot cfg)

variable {cfg} {r : Run} {stops : Int → List UInt8} {names : List (List UInt8)}

theorem writeStops_of_lt {k start : Int} (h : k < start) : writeStops cfg stops start names k = stops k := by
  induction names generalizing stops start with
  | nil => rfl
  | cons name names ih => rw [writeStops, ih (by omega), Function.update_of_ne (by omega)]

theorem writeStops_getElem? {j : Nat} {name : List UInt8} (h : names[j]? = some name) (start : Int) :
    writeStops cfg stops start names (start + j) = slot cfg name := by
  induction names generalizing stops start j with
  | nil => cases h
  | cons first names ih =>
    cases j with
    | zero =>
      obtain rfl := Option.some.inj h
      rw [writeStops, writeStops_of_lt (by omega), Int.natCast_zero, Int.add_zero, Function.update_self]
    | succ j =>
      have hrest : writeStops cfg (Function.update stops start (slot cfg first)) (start + 1) names (start + 1 + j) =
          _ :=
        ih h (start + 1)
      rw [writeStops, ← hrest]
      congr 1
      omega

theorem Represents.update (h : Represents cfg r) (names : List (List UInt8)) :
    Represents cfg ⟨routeManagerUpdate cfg names r.route,
      r.accepted ++ names.take (cfg.routeMaxStops - r.accepted.length), r.visited⟩ := by
  have hcount := h.count
  have hbounded := h.bounded
  have htaken : (if (cfg.routeMaxStops : Int) - r.route.count < names.length then
      (cfg.routeMaxStops : Int) - r.route.count else names.length) =
      ((names.take (cfg.routeMaxStops - r.accepted.length)).length : Int) := by
    rw [length_take]
    split <;> omega
  have hprefix : names.take (names.take (cfg.routeMaxStops - r.accepted.length)).length =
      names.take (cfg.routeMaxStops - r.accepted.length) := by
    rw [length_take, ← take_take, take_length]
  refine ⟨?_, ?_, fun k name hk => ?_, h.index, ?_⟩
  · simp only [routeManagerUpdate, htaken, length_append, Int.natCast_add]
    rw [hcount]
  · simp only [length_append, length_take]
    omega
  · simp only [routeManagerUpdate, htaken, Int.toNat_natCast, hprefix]
    by_cases hold : k < r.accepted.length
    · rw [getElem?_append_left hold] at hk
      rw [writeStops_of_lt (by omega)]
      exact h.stored k name hk
    · rw [getElem?_append_right (by omega)] at hk
      rw [← writeStops_getElem? hk r.route.count]
      congr 1
      omega
  · simp only [map_append]
    exact h.visited.trans (prefix_append _ _)

theorem length_slot (cfg : Config) (name : List UInt8) : (slot cfg name).length = cfg.routeStopNameMax := by
  simp only [slot, storeField, length_append, length_take, length_replicate]
  omega

theorem cString_slot (cfg : Config) (name : List UInt8) :
    cString (slot cfg name) = (cString name).take (cfg.routeStopNameMax - 1) := by
  refine cString_storeField_eq_take _ fun hzero => ?_
  simpa using mem_takeWhile_imp hzero

theorem routeManagerParseJson_of_false {document : Document} {s : Route}
    (h : (routeManagerParseJson cfg document s).1 = false) : (routeManagerParseJson cfg document s).2 = s := by
  cases document with
  | invalid | notArray => rfl
  | array items =>
    cases items with
    | nil => cases h
    | cons item items =>
      simp only [routeManagerParseJson] at h ⊢
      split at h
      · cases h
      · next hbad => rw [if_neg hbad]

theorem represents_clear : Represents cfg ⟨routeManagerClear cfg, [], []⟩ :=
  ⟨rfl, Nat.zero_le _, fun _ _ h => (by cases h), rfl, nil_prefix⟩

theorem Represents.message (h : Represents cfg r) (document : Document) :
    Represents cfg (step cfg r (.message document)) := by
  cases document with
  | invalid | notArray => exact h
  | array items =>
    cases items with
    | nil => exact represents_clear
    | cons item items =>
      simp only [step, routeManagerParseJson, accept]
      split
      · exact h.update _
      · exact h

theorem Represents.getCurrentStop_eq (h : Represents cfg r) :
    getCurrentStop r.route = (r.accepted.map (slot cfg))[r.visited.length]? := by
  have hcount := h.count
  have hindex := h.index
  rw [getCurrentStop]
  split
  · have hk : r.visited.length < r.accepted.length := by omega
    rw [hindex, h.stored _ _ (getElem?_eq_getElem hk), getElem?_map, getElem?_eq_getElem hk]
    rfl
  · rw [getElem?_eq_none (by rw [length_map]; omega)]

theorem Represents.advance {stop : List UInt8} (h : Represents cfg r) (hstop : getCurrentStop r.route = some stop) :
    Represents cfg ⟨(advanceStop r.route).2, r.accepted, r.visited ++ [stop]⟩ := by
  have hcurrent := h.getCurrentStop_eq
  have hadvance : advanceStop r.route = (true, { r.route with currentIndex := r.route.currentIndex + 1 }) := by
    rw [getCurrentStop] at hstop
    split at hstop
    · next hlt => exact if_pos hlt
    · cases hstop
  rw [hadvance]
  refine ⟨h.count, h.bounded, h.stored, ?_, ?_⟩
  · simp only [h.index, length_append, length_singleton, Int.natCast_add, Int.natCast_one]
  · obtain ⟨rest, hrest⟩ := h.visited
    rw [hstop, ← hrest, getElem?_append_right le_rfl, Nat.sub_self] at hcurrent
    cases rest with
    | nil => cases hcurrent
    | cons first rest =>
      obtain rfl := Option.some.inj hcurrent
      exact ⟨rest, by rw [append_assoc]; exact hrest⟩

/-- The payload with the name of the stop is short enough to be published. -/
def Fits (stop : List UInt8) : Prop := (deliveredText (stopName stop)).length < mqttPayloadSize

/-- A press goes on to the next stop if there is a current one whose payload fits and is published. -/
theorem step_delivered (cfg : Config) (published : Bool) (r : Run) :
    (∃ stop, getCurrentStop r.route = some stop ∧ Fits stop ∧ published = true ∧
      step cfg r (.delivered published) = ⟨(advanceStop r.route).2, r.accepted, r.visited ++ [stop]⟩) ∨
    step cfg r (.delivered published) = r ∧
      (published = true → ∀ stop, getCurrentStop r.route = some stop → ¬ Fits stop) := by
  rcases hstop : getCurrentStop r.route with _ | stop
  · have hname : currentName r.route = none := by rw [currentName, hstop, Option.map_none]
    refine .inr ⟨?_, by simp⟩
    simp [step, pressDelivered, hname]
  · have hname : currentName r.route = some (stopName stop) := by rw [currentName, hstop, Option.map_some]
    by_cases hfits : Fits stop
    · have hroom : ¬ mqttPayloadSize ≤ (deliveredText (stopName stop)).length := Nat.not_le.mpr hfits
      cases published with
      | true => exact .inl ⟨stop, rfl, hfits, rfl, by simp [step, pressDelivered, hname, hroom, hstop]⟩
      | false => exact .inr ⟨by simp [step, pressDelivered, hname, hroom], by simp⟩
    · have hlong : mqttPayloadSize ≤ (deliveredText (stopName stop)).length := Nat.not_lt.mp hfits
      exact .inr ⟨by simp [step, pressDelivered, hname, hlong], by simpa using fun _ => hfits⟩

theorem Represents.delivered (h : Represents cfg r) (published : Bool) :
    Represents cfg (step cfg r (.delivered published)) := by
  obtain ⟨stop, hstop, -, -, heq⟩ | ⟨heq, -⟩ := step_delivered cfg published r
  · exact heq ▸ h.advance hstop
  · exact heq.symm ▸ h

theorem represents_run (cfg : Config) (events : List Event) : Represents cfg (run cfg events) := by
  refine foldl_invariant represents_clear fun r event _ h => ?_
  cases event with
  | message document => exact h.message document
  | delivered published => exact h.delivered published

/-- The slots hold the names that were accepted since the route was last cleared, each cut and
terminated, and the stops delivered are the first of them. -/
theorem route_is_bounded_log (cfg : Config) (events : List Event) : (0 ≤ (run cfg events).route.currentIndex ∧
      (run cfg events).route.currentIndex ≤ (run cfg events).route.count ∧
      (run cfg events).route.count ≤ cfg.routeMaxStops) ∧
    (run cfg events).route.count = (run cfg events).accepted.length ∧
    (∀ (k : Nat) name, (run cfg events).accepted[k]? = some name →
      ((run cfg events).route.stops k).length = cfg.routeStopNameMax ∧
      cString ((run cfg events).route.stops k) = (cString name).take (cfg.routeStopNameMax - 1)) ∧
    (run cfg events).route.currentIndex = (run cfg events).visited.length ∧
    (run cfg events).visited <+: (run cfg events).accepted.map (slot cfg) ∧ getCurrentStop (run cfg events).route =
      ((run cfg events).accepted.map (slot cfg))[(run cfg events).visited.length]? ∧
    ∀ document, (routeManagerParseJson cfg document (run cfg events).route).1 = false →
      (routeManagerParseJson cfg document (run cfg events).route).2 = (run cfg events).route := by
  have h := represents_run cfg events
  have hcount := h.count
  have hindex := h.index
  have hvisited := h.visited.length_le
  rw [length_map] at hvisited
  refine ⟨⟨by omega, by omega, ?_⟩, hcount, fun k name hk => ?_, hindex, h.visited, h.getCurrentStop_eq,
    fun document hrejected => ?_⟩
  · rw [hcount]
    exact_mod_cast h.bounded
  · rw [h.stored k name hk]
    exact ⟨length_slot cfg name, cString_slot cfg name⟩
  · exact routeManagerParseJson_of_false hrejected

inductive Assignment
  | assign (name : List UInt8)
  | delivered (published : Bool)

def Assignment.event : Assignment → Event
  | assign name => .message (.array [some name])
  | delivered published => .delivered published

def courierRun (cfg : Config) (events : List Assignment) : Run := run cfg (events.map Assignment.event)

theorem courierRun_append (cfg : Config) (events more : List Assignment) :
    courierRun cfg (events ++ more) = (more.map Assignment.event).foldl (step cfg) (courierRun cfg events) := by
  rw [courierRun, run, map_append, foldl_append]
  rfl

theorem accept_one (accepted : List (List UInt8)) (name : List UInt8) : accept cfg accepted (.array [some name]) =
    if accepted.length < cfg.routeMaxStops then accepted ++ [name] else accepted := by
  have htake : [some name].take cfg.routeMaxStops = [some name] := take_of_length_le cfg.maxStops_range.1
  have hroom : accept cfg accepted (.array [some name]) =
      accepted ++ [name].take (cfg.routeMaxStops - accepted.length) := by
    simp only [accept, htake]
    rfl
  rw [hroom]
  split
  · next h => exact congrArg (accepted ++ ·) (take_of_length_le (Nat.sub_pos_of_lt h))
  · next h =>
    rw [Nat.sub_eq_zero_of_le (Nat.not_lt.1 h)]
    exact append_nil _

theorem accepted_prefix (cfg : Config) (events : List Assignment) (r : Run) :
    r.accepted <+: ((events.map Assignment.event).foldl (step cfg) r).accepted := by
  refine foldl_relates (R := fun r r' : Run => r.accepted <+: r'.accepted) (fun _ => prefix_rfl)
    List.IsPrefix.trans r fun event hevent r => ?_
  obtain ⟨assignment, -, rfl⟩ := mem_map.1 hevent
  cases assignment with
  | assign name =>
    simp only [Assignment.event, step, accept_one]
    split
    · exact prefix_append _ _
    · exact prefix_rfl
  | delivered published => exact prefix_rfl

theorem visited_replicate (h : Represents cfg r) {n : Nat} (hn : r.visited.length + n ≤ r.accepted.length) :
    ((replicate n (Event.delivered true)).foldl (step cfg) r).visited.length = r.visited.length + n ↔
      ∀ stop ∈ ((r.accepted.map (slot cfg)).drop r.visited.length).take n, Fits stop := by
  induction n generalizing r with
  | zero => simp
  | succ n ih =>
    have hlt : r.visited.length < (r.accepted.map (slot cfg)).length := by
      rw [length_map]
      omega
    have hcurrent := h.getCurrentStop_eq
    rw [getElem?_eq_getElem hlt] at hcurrent
    rw [replicate_succ, foldl_cons, drop_eq_getElem_cons hlt, take_succ_cons,
      forall_mem_cons]
    obtain ⟨stop, hstop, hfits, -, heq⟩ | ⟨heq, hnot⟩ := step_delivered cfg true r
    · obtain rfl := Option.some.inj (hcurrent.symm.trans hstop)
      have hrest := ih (heq ▸ h.delivered true) (by simp only [length_append, length_singleton]; omega)
      rw [heq, and_iff_right hfits]
      simp only [length_append, length_singleton] at hrest ⊢
      rw [← hrest]
      omega
    · have hstays : (replicate n (Event.delivered true)).foldl (step cfg) r = r := by
        clear ih hn
        induction n with
        | zero => rfl
        | succ n ih => rw [replicate_succ, foldl_cons, heq, ih]
      rw [heq, hstays]
      exact iff_of_false (by omega) fun hall => hnot rfl _ hcurrent hall.1

/-- The next stop is accepted as long as fewer stops than there are slots have been, delivered or
not, and it is the current one once those before it have been delivered. Pressing delivered for each of these
comes to that point if their payloads fit, and does not if one of them does not fit. -/
theorem next_stop_accepted_iff (cfg : Config) (events : List Assignment) (name : List UInt8) :
    ((courierRun cfg (events ++ [.assign name])).accepted = (courierRun cfg events).accepted ++ [name] ↔
      (courierRun cfg events).accepted.length < cfg.routeMaxStops) ∧
    ((courierRun cfg events).accepted.length < cfg.routeMaxStops →
      (∀ more, (courierRun cfg (events ++ .assign name :: more)).visited.length =
          (courierRun cfg events).accepted.length →
        getCurrentStop (courierRun cfg (events ++ .assign name :: more)).route = some (slot cfg name)) ∧
      ((courierRun cfg (events ++ .assign name :: replicate
        ((courierRun cfg events).accepted.length - (courierRun cfg events).visited.length)
          (.delivered true))).visited.length = (courierRun cfg events).accepted.length ↔
        ∀ stop ∈ ((courierRun cfg events).accepted.map (slot cfg)).drop (courierRun cfg events).visited.length,
          Fits stop)) := by
  have haccepted : (courierRun cfg (events ++ [.assign name])).accepted =
      if (courierRun cfg events).accepted.length < cfg.routeMaxStops then (courierRun cfg events).accepted ++ [name]
      else (courierRun cfg events).accepted := by
    rw [courierRun_append]
    exact accept_one _ name
  have hmore (more : List Assignment) : courierRun cfg (events ++ .assign name :: more) =
      (more.map Assignment.event).foldl (step cfg) (courierRun cfg (events ++ [.assign name])) := by
    rw [← courierRun_append, append_assoc]
    rfl
  constructor
  · rw [haccepted]
    split
    · next h => exact iff_of_true rfl h
    · next h => exact iff_of_false (fun he => by simpa using congrArg List.length he) h
  · intro hlt
    rw [if_pos hlt] at haccepted
    refine ⟨fun more hvisited => ?_, ?_⟩
    · have hprefix := accepted_prefix cfg more (courierRun cfg (events ++ [.assign name]))
      rw [← hmore, haccepted] at hprefix
      obtain ⟨rest, hrest⟩ := hprefix
      have hstop :=
        (represents_run cfg ((events ++ Assignment.assign name :: more).map Assignment.event)).getCurrentStop_eq
      rw [← courierRun, hvisited, ← hrest] at hstop
      simpa using hstop
    · have hvisited := (represents_run cfg (events.map Assignment.event)).visited.length_le
      have hrepresents := represents_run cfg ((events ++ [Assignment.assign name]).map Assignment.event)
      have hsame : (courierRun cfg (events ++ [.assign name])).visited = (courierRun cfg events).visited := by
        rw [courierRun_append]
        rfl
      rw [length_map, ← courierRun] at hvisited
      rw [← courierRun] at hrepresents
      have hpresses := visited_replicate hrepresents
        (n := (courierRun cfg events).accepted.length - (courierRun cfg events).visited.length)
        (by rw [hsame, haccepted, length_append]; omega)
      have hundelivered : ((courierRun cfg (events ++ [.assign name])).accepted.map (slot cfg)).drop
          (courierRun cfg events).visited.length =
          ((courierRun cfg events).accepted.map (slot cfg)).drop (courierRun cfg events).visited.length ++
            [slot cfg name] := by
        rw [haccepted, map_append, drop_append_of_le_length (by rwa [length_map]), map_singleton]
      rw [hsame, hundelivered, take_append_of_le_length (by simp), take_of_length_le (by simp),
        Nat.add_sub_cancel' hvisited] at hpresses
      rw [hmore, map_replicate, Assignment.event]
      exact hpresses

def oneSlot : Config := ⟨1, 8, by decide, by decide⟩

/-- With room for one stop, a second one is dropped although the first has been delivered. -/
theorem delivered_stop_keeps_slot :
    (courierRun oneSlot [.assign [65], .delivered true]).accepted.length -
      (courierRun oneSlot [.assign [65], .delivered true]).visited.length < oneSlot.routeMaxStops ∧
      (courierRun oneSlot [.assign [65], .delivered true, .assign [66]]).accepted = [[65]] ∧
      getCurrentStop (courierRun oneSlot [.assign [65], .delivered true, .assign [66]]).route = none := by
  decide

end Logistics.RouteLog
