import Milo.Host.Mcp.Processes
import Milo.Rust

namespace Milo.Host.Mcp

open Milo.Lib
open Milo.Rust (bind_eq_ok)

-- The id of a line that is a request with an id, be it null.
def Line.requestId : Line → Option Json
  | .value (.object members) => get members "id"
  | _ => none

-- No answer to a notification, and to a request one with its id.
def Answers (id answer : Option Json) : Prop :=
  match id with
  | none => answer = none
  | some id => ∃ members, answer = some (.object members) ∧ get members "id" = some id

section Requests

variable (py : Python) (tools : Tools) (members : List (String × Json))

-- There is an id, which is not nested too deep for a response.
def Echoed : Prop := ∃ id, get members "id" = some id ∧ id.depth < py.levels

-- The params are an object, if there are any, the name is none that a dict cannot look up,
-- and what a tool returns is an object, which is not nested too deep to be written.
def CallFits : Prop :=
  ∃ params, (get members "params").getD (.object []) = .object params ∧
    ((get params "name").getD (.str "")).hashable = true ∧
    ∀ handler ∈ HANDLERS, (get params "name").getD (.str "") = .str handler → ∀ result,
      tools handler (orEmpty ((get params "arguments").getD (.object []))) = .returned result →
        (∃ members, result = .object members) ∧ result.depth ≤ py.indentLevels

def ObjectFits : Prop :=
  let method := (get members "method").getD (.str "")
  if method.str? = some "initialize" then Echoed py members
  else if method.str? = some "notifications/initialized" ∨ method.str? = some "initialized" then
    get members "id" = none
  else if method.str? = some "ping" then Echoed py members
  else if method.str? = some "tools/list" then Echoed py members
  else if method.str? = some "tools/call" then Echoed py members ∧ CallFits py tools members
  else ∀ id, get members "id" = some id → id ≠ .null ∧ id.depth < py.levels

-- What comes of a request is written, and is the answer to it.
def Responds (response : Except Escape (Option Json)) : Prop :=
  ∃ answer, response.bind (written py) = .ok answer ∧ Answers (get members "id") answer

end Requests

section Responses

variable {py : Python} {tools : Tools} {members : List (String × Json)}

theorem depth_ok (reqId result : Json) :
    (_ok reqId result).depth = max reqId.depth result.depth + 1 := by
  simp [_ok, Json.depth, Json.depthMembers, Json.depthMember]

theorem depth_methodNotFound (reqId method : Json) :
    (methodNotFound py reqId method).depth = max reqId.depth 1 + 1 := by
  simp [methodNotFound, Json.depth, Json.depthMembers, Json.depthMember]

theorem depth_callResult (text : String) (isError : Bool) : (callResult text isError).depth = 3 := rfl

theorem written_eq (response : Json) : written py (some response) =
    if response.depth ≤ py.levels then .ok (some response) else .error .recursionError := rfl

-- A result of the server's own is written with any id that is not too deep.
theorem responds_ok_iff {result : Json} (hresult : result.depth < 8) :
    Responds py members (.ok (some (_ok ((get members "id").getD .null) result))) ↔ Echoed py members := by
  have henough := py.enough.2
  have hdepth : (_ok ((get members "id").getD .null) result).depth ≤ py.levels ↔
      ((get members "id").getD .null).depth < py.levels := by
    rw [depth_ok]
    omega
  unfold Responds Echoed
  simp only [Except.bind, written_eq]
  cases hid : get members "id" with
  | none =>
      refine iff_of_false ?_ fun ⟨_, h, _⟩ => nomatch h
      rintro ⟨answer, hanswer, rfl⟩
      split_ifs at hanswer with hle
      cases hanswer
  | some id =>
      rw [hid] at hdepth
      constructor
      · rintro ⟨answer, hanswer, -⟩
        split_ifs at hanswer with hle
        exact ⟨id, rfl, hdepth.mp hle⟩
      · rintro ⟨_, ⟨⟩, hlt⟩
        exact ⟨_, if_pos (hdepth.mpr hlt), _, rfl, rfl⟩

theorem responds_none_iff : Responds py members (.ok none) ↔ get members "id" = none := by
  unfold Responds Answers
  cases get members "id" with
  | none => exact iff_of_true ⟨none, rfl, rfl⟩ rfl
  | some id =>
      refine iff_of_false ?_ (Option.some_ne_none id)
      rintro ⟨_, ⟨⟩, members, ⟨⟩, -⟩

theorem responds_unknown_iff (method : Json) :
    Responds py members (.ok (unknownMethod py ((get members "id").getD .null) method)) ↔
      ∀ id, get members "id" = some id → id ≠ .null ∧ id.depth < py.levels := by
  have henough := py.enough.2
  cases hid : get members "id" with
  | none => exact iff_of_true (responds_none_iff.mpr hid) nofun
  | some id =>
      rw [Option.getD_some]
      by_cases hnull : id = .null
      · rw [hnull]
        refine iff_of_false (fun h => ?_) fun h => (h _ rfl).1 rfl
        have hnone := responds_none_iff.mp h
        rw [hid] at hnone
        cases hnone
      · have hunknown : unknownMethod py id method = some (methodNotFound py id method) := by
          cases id with
          | null => exact absurd rfl hnull
          | _ => rfl
        have hdepth : (methodNotFound py id method).depth ≤ py.levels ↔ id.depth < py.levels := by
          rw [depth_methodNotFound]
          omega
        unfold Responds
        simp only [hunknown, Except.bind, written_eq, hid]
        constructor
        · rintro ⟨answer, hanswer, -⟩ _ ⟨⟩
          split_ifs at hanswer with hle
          exact ⟨hnull, hdepth.mp hle⟩
        · intro h
          exact ⟨_, if_pos (hdepth.mpr (h id rfl).2), _, rfl, rfl⟩

theorem asDict_ok_iff (value : Json) (members : List (String × Json)) :
    asDict value = .ok members ↔ value = .object members := by
  cases value <;> simp [asDict]

theorem depth_errorResult (text : String) : (errorResult text).depth = 1 := rfl

-- A call of a tool comes to a result that is written, unless it raises behind the tool.
theorem callTool_fits_iff (name arguments : Json) :
    (∃ called text, callTool py tools name arguments = .ok called ∧ py.dumpsIndent called.1 = .ok text) ↔
      name.hashable = true ∧ ∀ handler ∈ HANDLERS, name = .str handler → ∀ result,
        tools handler (orEmpty arguments) = .returned result →
          (∃ members, result = .object members) ∧ result.depth ≤ py.indentLevels := by
  have herror : ∀ text, py.dumpsIndent (errorResult text) = .ok (py.dumps (errorResult text)) := fun text =>
    if_pos (by rw [depth_errorResult]; have henough := py.enough.1; omega)
  unfold callTool
  split_ifs with hname
  · rw [and_iff_right hname]
    cases hhandler : name.str?.filter (· ∈ HANDLERS) with
    | none =>
        refine iff_of_true ⟨_, _, rfl, herror _⟩ fun handler hmem hstr => ?_
        rw [hstr] at hhandler
        simp [Json.str?, Option.filter, hmem] at hhandler
    | some handler =>
        obtain ⟨hstr, hmem⟩ := Option.filter_eq_some_iff.mp hhandler
        obtain rfl := (str?_eq_some_iff name handler).mp hstr
        have hmem' : handler ∈ HANDLERS := of_decide_eq_true hmem
        dsimp only
        cases htool : tools handler (orEmpty arguments) with
        | raised error text =>
            refine iff_of_true ⟨_, _, rfl, herror _⟩ fun other _ hother result hresult => ?_
            cases hother
            rw [htool] at hresult
            cases hresult
        | returned result =>
            constructor
            · rintro ⟨called, text, hcalled, htext⟩ other _ hother result' hresult
              cases hother
              rw [htool] at hresult
              cases hresult
              obtain ⟨members, hmembers, hpair⟩ := bind_eq_ok.mp hcalled
              cases hpair
              unfold Python.dumpsIndent at htext
              split_ifs at htext with hdepth
              exact ⟨⟨members, (asDict_ok_iff result members).mp hmembers⟩, hdepth⟩
            · intro hfits
              obtain ⟨⟨members, rfl⟩, hdepth⟩ := hfits handler hmem' rfl result htool
              exact ⟨_, _, rfl, if_pos hdepth⟩
  · refine iff_of_false ?_ fun hfits => hname hfits.1
    rintro ⟨_, _, hcalled, -⟩
    cases hcalled

variable {σ : Type} {s : σ} {call : Json → Json → Except Escape (Json × Bool) × σ}

theorem responds_error (escape : Escape) : ¬Responds py members (.error escape) := by
  rintro ⟨_, ⟨⟩, -⟩

theorem responds_toolsCall_iff (hcall : ∀ name arguments, (call name arguments).1 = callTool py tools name arguments) :
    Responds py members (toolsCall py s call members ((get members "id").getD .null)).1 ↔
      Echoed py members ∧ CallFits py tools members := by
  unfold toolsCall CallFits
  cases hparams : asDict ((get members "params").getD (.object [])) with
  | error escape =>
      refine iff_of_false (responds_error escape) ?_
      rintro ⟨-, params, hobject, -⟩
      rw [hobject] at hparams
      cases hparams
  | ok params =>
      have hobject := (asDict_ok_iff _ _).mp hparams
      have hfits := @callTool_fits_iff py tools ((get params "name").getD (.str ""))
        ((get params "arguments").getD (.object []))
      have hrest : (∃ params', (get members "params").getD (.object []) = .object params' ∧
          ((get params' "name").getD (.str "")).hashable = true ∧
          ∀ handler ∈ HANDLERS, (get params' "name").getD (.str "") = .str handler → ∀ result,
            tools handler (orEmpty ((get params' "arguments").getD (.object []))) = .returned result →
              (∃ members, result = .object members) ∧ result.depth ≤ py.indentLevels) ↔
          ∃ called text, callTool py tools ((get params "name").getD (.str ""))
            ((get params "arguments").getD (.object [])) = .ok called ∧ py.dumpsIndent called.1 = .ok text := by
        rw [hfits, hobject]
        constructor
        · rintro ⟨_, ⟨⟩, h⟩
          exact h
        · exact fun h => ⟨params, rfl, h⟩
      rw [hrest]
      dsimp only
      rw [hcall]
      cases hcalled : callTool py tools ((get params "name").getD (.str ""))
          ((get params "arguments").getD (.object [])) with
      | error escape =>
          exact iff_of_false (responds_error escape) fun ⟨_, _, _, h, _⟩ => nomatch h
      | ok called =>
          cases htext : py.dumpsIndent called.1 with
          | error escape =>
              refine iff_of_false (fun h => ?_) ?_
              · obtain ⟨answer, hanswer, -⟩ := h
                obtain ⟨_, hbody, -⟩ := bind_eq_ok.mp hanswer
                obtain ⟨_, ⟨⟩, hbody⟩ := bind_eq_ok.mp hbody
                obtain ⟨_, hdumps, -⟩ := bind_eq_ok.mp hbody
                rw [htext] at hdumps
                cases hdumps
              · rintro ⟨-, _, _, ⟨⟩, h⟩
                rw [htext] at h
                cases h
          | ok text =>
              rw [and_iff_left ⟨called, text, rfl, htext⟩,
                ← @responds_ok_iff py members (callResult text called.2) (by rw [depth_callResult]; omega)]
              change Responds py members (do
                let text ← py.dumpsIndent called.1
                return some (_ok ((get members "id").getD .null) (callResult text called.2))) ↔ _
              rw [htext]
              rfl

theorem responds_handleRequest_iff
    (hcall : ∀ name arguments, (call name arguments).1 = callTool py tools name arguments) :
    Responds py members (handleRequest py s call (.object members)).1 ↔ ObjectFits py tools members := by
  unfold ObjectFits handleRequest asDict
  dsimp only
  split_ifs with hinitialize hinitialized hping hlist htools
  · exact responds_ok_iff (by decide)
  · exact responds_none_iff
  · exact responds_ok_iff (by decide)
  · exact responds_ok_iff (by decide)
  · exact responds_toolsCall_iff hcall
  · exact responds_unknown_iff _

end Responses

section Serve

variable {κ : Type} [DecidableEq κ] (py : Builtins κ)

-- The server behind a line, which the next one finds.
def Server.after (s : Server κ) (input : Input κ) : Server κ := (s.handleLine py input).2

def Input.Fits (s : Server κ) (input : Input κ) : Prop :=
  match input.line with
  | .blank => True
  | .invalid => True
  | .refused => False
  | .value (.object members) =>
      ObjectFits py.toPython (fun handler arguments => (s.handle py input.world handler arguments).1) members
  | .value _ => False

-- All lines are handled, each is answered as it should be, and nothing is raised in the end.
def Served (inputs : List (Input κ)) (w : World κ) : Prop :=
  (serveStdio py inputs w).2.1 = none ∧
    List.Forall₂ (fun input answer => Answers input.line.requestId answer) inputs (serveStdio py inputs w).1

variable {py} {s : Server κ} {w : World κ}

theorem handleLine_fits_iff (s : Server κ) (input : Input κ) :
    (∃ answer, (s.handleLine py input).1 = .ok answer ∧ Answers input.line.requestId answer) ↔
      input.Fits py s := by
  unfold Server.handleLine Input.Fits Line.requestId
  cases input.line with
  | blank => exact iff_of_true ⟨none, rfl, rfl⟩ trivial
  | invalid => exact iff_of_true ⟨none, rfl, rfl⟩ trivial
  | refused => exact iff_of_false (fun ⟨_, hanswer, _⟩ => by cases hanswer) id
  | value request =>
      cases request with
      | object members => exact responds_handleRequest_iff fun _ _ => rfl
      | null | bool b | int n | float repr | str s | array elements =>
          exact iff_of_false (fun ⟨_, hanswer, _⟩ => by cases hanswer) id

-- The lines are served to the end, which leaves the server behind the last of them.
theorem serveLines_iff (s : Server κ) (inputs : List (Input κ)) :
    ((s.serveLines py inputs).2.1 = none ∧ List.Forall₂
        (fun input answer => Answers input.line.requestId answer) inputs (s.serveLines py inputs).1 ↔
      AllMeet (Server.after py) (Input.Fits py) s inputs) ∧
    ((s.serveLines py inputs).2.1 = none →
      (s.serveLines py inputs).2.2 = inputs.foldl (Server.after py) s) := by
  induction inputs generalizing s with
  | nil => exact ⟨iff_of_true ⟨rfl, .nil⟩ trivial, fun _ => rfl⟩
  | cons input inputs ih =>
      have hfits := @handleLine_fits_iff κ _ py s input
      cases hinput : s.handleLine py input with
      | mk response s' =>
          have hafter : s.after py input = s' := congrArg Prod.snd hinput
          rw [hinput] at hfits
          rw [AllMeet, List.foldl_cons, hafter, Server.serveLines, hinput, ← hfits]
          cases response with
          | error escape => simp
          | ok answer =>
              obtain ⟨hmeet, hreached⟩ := ih s'
              refine ⟨?_, hreached⟩
              rw [← hmeet]
              simp [and_left_comm]

-- For any lines and whatever the tools come to, from a fresh server on.
theorem served_iff (py : Builtins κ) (inputs : List (Input κ)) (w : World κ) :
    Served py inputs w ↔ AllMeet (Server.after py) (Input.Fits py) .init inputs ∧
      ∀ key ∈ (inputs.foldl (Server.after py) .init).registry, w.close key = none := by
  obtain ⟨hmeet, hreached⟩ := @serveLines_iff κ _ py .init inputs
  unfold Served serveStdio
  dsimp only
  rw [← hmeet]
  cases hended : (Server.init.serveLines py inputs).2.1 with
  | some escape => simp
  | none =>
      rw [hreached hended]
      unfold Server.shutdown
      cases hclose : List.findSome? w.close (inputs.foldl (Server.after py) .init).registry with
      | some raised =>
          obtain ⟨key, hmem, hraised⟩ := List.exists_of_findSome?_eq_some hclose
          refine iff_of_false (fun h => nomatch h.1) fun h => ?_
          rw [h.2 key hmem] at hraised
          cases hraised
      | none =>
          rw [and_iff_left (List.findSome?_eq_none_iff.mp hclose)]
          rfl

end Serve

section Unserved

def request (members : List (String × Json)) : Input String where
  line := .value (.object (("jsonrpc", .str "2.0") :: members))
  world := world (.ok .null)

-- A call with null for its params, and a ping behind it.
def nullParams : Input String :=
  request [("id", .int 1), ("method", .str "tools/call"), ("params", .null)]

def ping : Input String := request [("id", .int 2), ("method", .str "ping")]

def pingNotification : Input String := request [("method", .str "ping")]

-- A device is connected.
def connectBoard : Input String :=
  request [("id", .int 3), ("method", .str "tools/call"), ("params", .object [
    ("name", .str "milo_connect_serial"),
    ("arguments", .object [("name", .str "a"), ("port", .str "/dev/ttyACM0")])])]

-- Its port cannot be closed.
def unplugged : World String := { world (.ok .null) with close := fun _ => some ⟨"OSError", "Bad file descriptor"⟩ }

-- The call ends the server before the ping is read, a notification is answered, and where a
-- transport does not close the shutdown raises behind the last line.
theorem nullParams_not_served :
    (∀ (py : Builtins String) w, (serveStdio py [nullParams, ping] w).1 = [] ∧
      (serveStdio py [nullParams, ping] w).2.1 =
        some (.attributeError "'NoneType' object has no attribute 'get'") ∧
      ¬Served py [nullParams, ping] w) ∧
    (∀ (py : Builtins String) w, (serveStdio py [pingNotification] w).1 = [some (_ok .null (.object []))] ∧
      ¬Served py [pingNotification] w) ∧
    (serveStdio names [connectBoard] unplugged).2.1 = some (.raised ⟨"OSError", "Bad file descriptor"⟩) ∧
      ¬Served names [connectBoard] unplugged := by
  refine ⟨fun py w => ⟨rfl, rfl, fun hserved => nomatch hserved.1⟩, fun py w => ?_, ?_⟩
  · have hwritten : (serveStdio py [pingNotification] w).1 = [some (_ok .null (.object []))] := by
      have hdepth : (_ok .null (.object [])).depth ≤ py.levels := le_trans (by decide) py.enough.2
      have hline : (Server.init : Server String).handleLine py pingNotification =
          (.ok (some (_ok .null (.object []))), .init) := Prod.ext (if_pos hdepth) rfl
      unfold serveStdio
      dsimp only
      rw [Server.serveLines, hline]
      rfl
    refine ⟨hwritten, fun hserved => ?_⟩
    have hanswers := hserved.2
    rw [hwritten] at hanswers
    cases hanswers with
    | cons hanswer _ => cases hanswer
  · have hraised : (serveStdio names [connectBoard] unplugged).2.1 =
        some (.raised ⟨"OSError", "Bad file descriptor"⟩) := by decide
    refine ⟨hraised, fun hserved => ?_⟩
    rw [hserved.1] at hraised
    cases hraised

end Unserved

end Milo.Host.Mcp
