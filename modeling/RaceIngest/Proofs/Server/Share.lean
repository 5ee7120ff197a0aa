import Mathlib.Data.List.Forall2
import RaceIngest.Proofs.Registry.Isolation
import RaceIngest.Proofs.Server.Moves
import RaceIngest.Proofs.Wire.Packet

/-!
# What one endpoint has of a server

A datagram is junk when it is too short for a packet or has no timestamp: it brings no sample, and
receiving it changes nothing.

What one endpoint has of a server is again a server. Its traffic is that of the endpoint, and beside
the traffic it is the whole: the listener, the calls to listen and the calls to shut down are the
same, for they concern all endpoints. Only two things may differ. A call to listen that dies of a
sample from elsewhere goes on receiving in the part. And a call to shut down may learn earlier there
that all sessions have ended, since these are fewer, so that it does not fail when its deadline
passes.

Whatever the whole does, the part does likewise or not at all; `Station.Follows` says so of one
action.

## Main definitions

* `Server.isJunk`,
* `Station.shareOwners`, `Station.Beside`, `Station.Part`, `Station.Divided`, `Station.Follows`.

## Main statements

* `Server.sample?_eq_none_iff`: junk is what brings no sample,
* `Station.follows_receive`, `Station.follows_route`, `Station.follows_turn`,
  `Station.follows_close` and their kind: what the part does when the whole goes on.
-/

namespace RaceIngest

/-! ## Junk -/

namespace Wire.Packet

/-- The timestamp of a sample is at four bytes of its packet. -/
theorem timestamp_encode (s : Sample) :
    ofLittleEndian (((encode s).drop 4).take 4) = s.timestampMs.toNat := by
  have hlayout : ∃ rest, encode s =
      Scalar.i32.encode s.isRaceOn ++ (Scalar.u32.encode s.timestampMs ++ rest) :=
    ⟨_, by rw [encode, List.flatten_cons, List.flatten_cons]⟩
  obtain ⟨rest, hlayout⟩ := hlayout
  have hfirst : (Scalar.i32.encode s.isRaceOn).length = 4 := Scalar.i32.length_encode _
  have hsecond : (Scalar.u32.encode s.timestampMs).length = 4 := Scalar.u32.length_encode _
  rw [hlayout, List.drop_left' hfirst, List.take_left' hsecond]
  show ofLittleEndian (toLittleEndian 4 s.timestampMs.toNat) = s.timestampMs.toNat
  rw [ofLittleEndian_toLittleEndian]
  exact Nat.mod_eq_of_lt s.timestampMs.toNat_lt

end Wire.Packet

namespace Server

/-- A datagram that is too short for a packet, or whose timestamp, at the bytes from the fifth to
the eighth, is zero. -/
def isJunk (datagram : List UInt8) : Bool :=
  decide (datagram.length < 331) || Wire.ofLittleEndian ((datagram.drop 4).take 4) == 0

/-- A datagram brings no sample exactly when it is junk. -/
theorem sample?_eq_none_iff (datagram : List UInt8) :
    sample? datagram = none ↔ isJunk datagram = true := by
  have hwidth : Wire.packetSize = 331 := rfl
  have hmost : Wire.maxDatagramSize = 1024 := rfl
  have hlength : (datagram.take Wire.maxDatagramSize).length = min 1024 datagram.length :=
    List.length_take
  unfold sample? isJunk
  by_cases hshort : datagram.length < 331
  · rw [Wire.Packet.decode_of_lt (by omega)]
    simp [hshort]
  · have henough : Wire.packetSize ≤ (datagram.take Wire.maxDatagramSize).length := by omega
    obtain ⟨s, hdecoded, hbytes⟩ := Wire.Packet.exists_decode henough
    have htimestamp : Wire.ofLittleEndian ((datagram.drop 4).take 4) = s.timestampMs.toNat := by
      rw [← Wire.Packet.timestamp_encode, hbytes, List.take_take, List.drop_take, List.take_take]
      rfl
    rw [hdecoded, htimestamp]
    simp [hshort, Sample.hasTimestamp, ← UInt32.toNat_inj]

/-- Receiving junk changes nothing. -/
theorem receive_of_junk {σ : Type} (server : Server σ) (sender : String) {datagram : List UInt8}
    (hjunk : isJunk datagram = true) : server.receive sender datagram = server := by
  unfold receive
  rw [(sample?_eq_none_iff datagram).mpr hjunk]

end Server

/-! ## Rows that match -/

section Rows

variable {α β : Type} {R : α → β → Prop} {xs : List α} {ys : List β} {n : Nat} {x : α} {y : β}

theorem exists_of_forall₂ (hrows : List.Forall₂ R xs ys) (hfound : xs[n]? = some x) :
    ∃ y, ys[n]? = some y ∧ R x y := by
  induction hrows generalizing n with
  | nil => cases hfound
  | @cons first second xs ys hhere hrest ih =>
      cases n with
      | zero =>
          have hsame : first = x := by simpa using hfound
          exact ⟨second, rfl, hsame ▸ hhere⟩
      | succ n => exact ih (by simpa using hfound)

theorem forall₂_set (hrows : List.Forall₂ R xs ys) (hhere : R x y) (n : Nat) :
    List.Forall₂ R (xs.set n x) (ys.set n y) := by
  induction hrows generalizing n with
  | nil => exact .nil
  | cons hfirst hrest ih =>
      cases n with
      | zero => exact .cons hhere hrest
      | succ n => exact .cons hfirst (ih n)

theorem set_of_getElem? (hfound : xs[n]? = some x) : xs.set n x = xs := by
  obtain ⟨hbound, rfl⟩ := List.getElem?_eq_some_iff.mp hfound
  exact List.set_getElem_self hbound

theorem forall₂_concat (hrows : List.Forall₂ R xs ys) (hhere : R x y) :
    List.Forall₂ R (xs ++ [x]) (ys ++ [y]) :=
  List.rel_append hrows (.cons hhere .nil)

end Rows

/-! ## Calls of the whole and of the part -/

/-- A call to listen is in the part where it is in the whole, or it died of what the part has
nothing of. -/
def ListenCall.Matches (whole part : ListenCall) : Prop := whole = part ∨ whole = .died

theorem ListenCall.Matches.eq {whole part : ListenCall} (hsame : whole.Matches part)
    (halive : whole ≠ .died) : part = whole :=
  (hsame.resolve_right halive).symm

/-- A call to shut down is in the part where it is in the whole. It may only know earlier that all
sessions have ended, and then returns without an error. -/
inductive ShutdownStage.Matches : ShutdownStage → ShutdownStage → Prop where
  | same (stage : ShutdownStage) : Matches stage stage
  | informed : Matches (.waiting false) (.waiting true)
  | returned (whole part : Option Error) : Matches (.returned whole) (.returned part)

/-- A call to shut down has the same deadline in the part, and a matching stage. -/
structure ShutdownCall.Matches (whole part : ShutdownCall) : Prop where
  deadline_eq : part.deadline = whole.deadline
  stage : whole.stage.Matches part.stage

theorem ShutdownCall.Matches.eq {whole part : ShutdownCall} (hsame : whole.Matches part)
    (hwaiting : whole.stage ≠ .waiting false) (hbusy : ∀ error, whole.stage ≠ .returned error) :
    part = whole := by
  obtain ⟨deadline, stage⟩ := whole
  obtain ⟨_, _⟩ := part
  obtain ⟨hdeadline, hstages⟩ := hsame
  cases hdeadline
  cases hstages with
  | same => rfl
  | informed => exact absurd rfl hwaiting
  | returned error => exact absurd rfl (hbusy error)

/-- A call that is told that all sessions have ended may be told it earlier in the part. -/
theorem ShutdownCall.Matches.notice_part {whole part : ShutdownCall} (hsame : whole.Matches part) :
    whole.Matches part.notice := by
  obtain ⟨deadline, stage⟩ := whole
  obtain ⟨_, _⟩ := part
  obtain ⟨hdeadline, hstages⟩ := hsame
  cases hdeadline
  cases hstages with
  | informed => exact ⟨rfl, .informed⟩
  | returned before after => exact ⟨rfl, .returned before after⟩
  | same =>
      cases stage with
      | waiting reached =>
          cases reached with
          | false => exact ⟨rfl, .informed⟩
          | true => exact ⟨rfl, .same _⟩
      | abandoning | silencing | closing | closed | returned => exact ⟨rfl, .same _⟩

theorem ShutdownCall.Matches.notice {whole part : ShutdownCall} (hsame : whole.Matches part) :
    whole.notice.Matches part.notice := by
  obtain ⟨deadline, stage⟩ := whole
  obtain ⟨_, _⟩ := part
  obtain ⟨hdeadline, hstages⟩ := hsame
  cases hdeadline
  cases hstages with
  | same => exact ⟨rfl, .same _⟩
  | informed => exact ⟨rfl, .same _⟩
  | returned before after => exact ⟨rfl, .returned before after⟩

/-- Only a sample that arrives adds to the endpoints that are called for. -/
theorem Traffic.Move.endpoints_eq {shards : Shards} {traffic after : Traffic MemoryStore}
    {action : Action} (hmove : traffic.Move shards action after)
    (harrives : ∀ endpoint sample, action ≠ .arrive endpoint sample) :
    after.calls.map (·.endpoint) = traffic.calls.map (·.endpoint) := by
  cases hmove with
  | arrives endpoint sample => exact absurd rfl (harrives endpoint sample)
  | finds n call id hfound | misses n call hfound | isRefused n call hfound | opens n call hfound
  | dies n call hfound | spawns n call id hfound | posts n call id task hfound
  | drops n call id hfound =>
      exact map_set_of_eq hfound rfl
  | turns | beginsClose | refuses | passes | awaits | cancels | reopens => rfl

namespace Station

variable {endpoint : String} {draws : Draws} {division : Division} {selection : Selection}
  {shards : Shards} {whole part after : Station MemoryStore} {n r s : Nat}

/-- For every call for an endpoint, the call to listen that received it. -/
def shareOwners (station : Station MemoryStore) (endpoint : String) : List Nat :=
  ((station.owners.zip (station.traffic.calls.map (·.endpoint))).filter (·.2 == endpoint)).map (·.1)

/-- The one station has of the other all but the traffic. -/
structure Beside (endpoint : String) (whole part : Station MemoryStore) : Prop where
  address_eq : part.address = whole.address
  lifecycle_eq : part.lifecycle = whole.lifecycle
  listens : List.Forall₂ ListenCall.Matches whole.listens part.listens
  shutdowns : List.Forall₂ ShutdownCall.Matches whole.shutdowns part.shutdowns
  owners_eq : part.owners = whole.shareOwners endpoint

/-- One station is what an endpoint has of another. -/
structure Part (endpoint : String) (selection : Selection) (draws : Draws) (division : Division)
    (whole part : Station MemoryStore) : Prop where
  beside : Beside endpoint whole part
  traffic : Traffic.Part endpoint selection draws division whole.traffic part.traffic

/-- Sessions and races are divided between an endpoint and the others. -/
structure Divided (endpoint : String) (draws : Draws) (division : Division)
    (station : Station MemoryStore) : Prop where
  traffic : station.traffic.Divided endpoint draws division
  length_owners : station.owners.length = station.traffic.calls.length

/-- The whole becomes what is told, whatever was drawn, and every part of it that goes on as told
becomes its part. -/
def Follows (endpoint : String) (draws : Draws) (division : Division)
    (whole after : Station MemoryStore)
    (goesOn : Station MemoryStore → Option (Station MemoryStore)) : Prop :=
  ∃ draws' division', draws.Begins draws' ∧ after.Divided endpoint draws' division' ∧
    ∀ selection part, selection.Picks draws' → Part endpoint selection draws division whole part →
      ∃ part', goesOn part = some part' ∧ Part endpoint selection draws' division' after part'

/-- The part follows when its traffic does, and everything beside it. -/
theorem Follows.of_traffic {goes : Traffic MemoryStore → Option (Traffic MemoryStore)}
    {goesOn : Station MemoryStore → Option (Station MemoryStore)}
    (hfollows : Traffic.Follows endpoint draws division whole.traffic after.traffic goes)
    (hlength : after.owners.length = after.traffic.calls.length)
    (hbeside : ∀ selection part traffic, Part endpoint selection draws division whole part →
      goes part.traffic = some traffic → traffic.closers = after.traffic.closers →
      ∃ part', goesOn part = some part' ∧ Beside endpoint after part' ∧ part'.traffic = traffic) :
    Follows endpoint draws division whole after goesOn := by
  obtain ⟨draws', division', hbegins, hdivided, hparts⟩ := hfollows
  refine ⟨draws', division', hbegins, ⟨hdivided, hlength⟩, fun selection part hpicks hshares => ?_⟩
  obtain ⟨traffic, hwent, htrafficShares⟩ := hparts selection part.traffic hpicks hshares.traffic
  obtain ⟨part', hgone, hrest, hsame⟩ :=
    hbeside selection part traffic hshares hwent htrafficShares.closers_eq
  exact ⟨part', hgone, hrest, hsame ▸ htrafficShares⟩

/-- The part follows when the traffic rests. -/
theorem Follows.of_beside {goesOn : Station MemoryStore → Option (Station MemoryStore)}
    (hdivided : whole.Divided endpoint draws division) (htraffic : after.traffic = whole.traffic)
    (howners : after.owners = whole.owners)
    (hbeside : ∀ selection part, Part endpoint selection draws division whole part →
      ∃ part', goesOn part = some part' ∧ Beside endpoint after part' ∧
        part'.traffic = part.traffic) :
    Follows endpoint draws division whole after goesOn := by
  have hrests : Traffic.Follows endpoint draws division whole.traffic after.traffic some := by
    rw [htraffic]
    exact .rests hdivided.traffic
  apply Follows.of_traffic hrests
  · rw [htraffic, howners]
    exact hdivided.length_owners
  · intro selection part same hshares hhere _
    rw [← Option.some.inj hhere]
    exact hbeside selection part hshares

/-- Nothing happens, and the part does nothing. -/
theorem Follows.rests (hdivided : whole.Divided endpoint draws division) :
    Follows endpoint draws division whole whole some :=
  .of_beside hdivided rfl rfl fun _ part hshares => ⟨part, rfl, hshares.beside, rfl⟩

/-! ## Samples that are being routed -/

theorem shareOwners_eq (station : Station MemoryStore) (endpoint : String) :
    station.shareOwners endpoint =
      ((station.owners.zip station.traffic.calls).filter (·.2.endpoint == endpoint)).map (·.1) := by
  unfold shareOwners
  rw [List.zip_map_right, List.filter_map, List.map_map]
  rfl

theorem map_snd_zip (hdivided : whole.Divided endpoint draws division) :
    (whole.owners.zip whole.traffic.calls).map (·.2) = whole.traffic.calls :=
  List.map_snd_zip (Nat.le_of_eq hdivided.length_owners.symm)

/-- What the part has of the calls and of those who received them. -/
theorem zip_share (hdivided : whole.Divided endpoint draws division) :
    (whole.shareOwners endpoint).zip (whole.traffic.shareCalls endpoint) =
      ((whole.owners.zip whole.traffic.calls).filter (·.2.endpoint == endpoint)).map
        fun (owner, call) => (owner, call.renumber (whole.registry.rank endpoint)) := by
  have hcalls : whole.traffic.shareCalls endpoint =
      ((whole.owners.zip whole.traffic.calls).filter (·.2.endpoint == endpoint)).map
        (·.2.renumber (whole.registry.rank endpoint)) := by
    unfold Traffic.shareCalls
    nth_rewrite 1 [← map_snd_zip hdivided]
    rw [List.filter_map, List.map_map]
    rfl
  rw [shareOwners_eq, hcalls, List.zip_map']

theorem Part.zip_eq (hshares : Part endpoint selection draws division whole part)
    (hdivided : whole.Divided endpoint draws division) :
    part.owners.zip part.traffic.calls =
      ((whole.owners.zip whole.traffic.calls).filter (·.2.endpoint == endpoint)).map
        fun (owner, call) => (owner, call.renumber (whole.registry.rank endpoint)) := by
  rw [hshares.beside.owners_eq, hshares.traffic.calls_eq]
  exact zip_share hdivided

/-- A call to listen that routes nothing routes nothing for the endpoint. -/
theorem Part.isRouting (hshares : Part endpoint selection draws division whole part)
    (hdivided : whole.Divided endpoint draws division) (hidle : whole.isRouting n = false) :
    part.isRouting n = false := by
  unfold Station.isRouting at hidle ⊢
  rw [hshares.zip_eq hdivided]
  rw [List.any_eq_false] at hidle ⊢
  rintro entry hmem
  obtain ⟨⟨owner, call⟩, hfiltered, rfl⟩ := List.mem_map.mp hmem
  have hfinished := hidle (owner, call) (List.mem_filter.mp hfiltered).1
  have hsame : (call.renumber (whole.registry.rank endpoint)).stage.isOver = call.stage.isOver := by
    unfold RouteCall.renumber
    cases call.stage <;> rfl
  show ¬(owner == n && !(call.renumber (whole.registry.rank endpoint)).stage.isOver) = true
  rw [hsame]
  exact hfinished

/-! ## Calls to listen -/

/-- A call that did not die is in the part where it is in the whole. -/
theorem Part.listen? (hshares : Part endpoint selection draws division whole part)
    {call : ListenCall} (hfound : whole.listens[n]? = some call) (halive : call ≠ .died) :
    part.listens[n]? = some call := by
  obtain ⟨there, hfoundThere, hsame⟩ := exists_of_forall₂ hshares.beside.listens hfound
  rw [hfoundThere, hsame.eq halive]

theorem Beside.setListen (hbeside : Beside endpoint whole part) (n : Nat) (call : ListenCall) :
    Beside endpoint (whole.setListen n call) (part.setListen n call) :=
  { hbeside with listens := forall₂_set hbeside.listens (.inl rfl) n }

theorem follows_listen (hdivided : whole.Divided endpoint draws division) :
    Follows endpoint draws division whole whole.listen fun part => some part.listen := by
  have htraffic (station : Station MemoryStore) : station.listen.traffic = station.traffic := by
    unfold Station.listen
    split <;> rfl
  have howners : whole.listen.owners = whole.owners := by
    unfold Station.listen
    split <;> rfl
  apply Follows.of_beside hdivided (htraffic whole) howners
  intro selection part hshares
  have hbeside := hshares.beside
  refine ⟨_, rfl, ?_, htraffic part⟩
  unfold Station.listen
  rw [hbeside.lifecycle_eq]
  rcases whole.lifecycle.claim with ⟨_ | _, lifecycle⟩
  · exact { hbeside with lifecycle_eq := rfl, listens := forall₂_concat hbeside.listens (.inl rfl) }
  · exact { hbeside with lifecycle_eq := rfl, listens := forall₂_concat hbeside.listens (.inl rfl) }

theorem follows_bind {bound : Option String} (hdivided : whole.Divided endpoint draws division)
    (hwent : whole.bind? n bound = some after) :
    Follows endpoint draws division whole after (·.bind? n bound) := by
  unfold bind? at hwent
  split at hwent
  · rename_i token hfound
    rcases hcompleted : whole.lifecycle.completeBind token whole.address bound with
      ⟨error | _, lifecycle⟩
    · rw [hcompleted] at hwent
      rw [← Option.some.inj hwent]
      apply Follows.of_beside hdivided
      case htraffic => rfl
      case howners => rfl
      case hbeside =>
        intro selection part hshares
        have hbeside : Beside endpoint { whole with lifecycle } { part with lifecycle } :=
          { hshares.beside with lifecycle_eq := rfl }
        refine ⟨_, ?_, hbeside.setListen n (.returned error), rfl⟩
        unfold bind?
        simp only [hshares.listen? hfound nofun, hshares.beside.lifecycle_eq,
          hshares.beside.address_eq, hcompleted]
    · rw [hcompleted] at hwent
      rw [← Option.some.inj hwent]
      apply Follows.of_traffic
      case hfollows => exact Traffic.follows_reopen hdivided.traffic
      case hlength => exact hdivided.length_owners
      case hbeside =>
        intro selection part traffic hshares hreopened _
        have hbeside : Beside endpoint (whole.switch token lifecycle)
            (part.switch token lifecycle) :=
          { hshares.beside with lifecycle_eq := rfl }
        refine ⟨_, ?_, hbeside.setListen n (.receiving token), Option.some.inj hreopened⟩
        unfold bind?
        simp only [hshares.listen? hfound nofun, hshares.beside.lifecycle_eq,
          hshares.beside.address_eq, hcompleted]
  · cases hwent

/-- A call to listen that was told to stop, or that cannot read its socket, returns. -/
theorem follows_stop (hdivided : whole.Divided endpoint draws division)
    (hwent : whole.stop? n = some after) :
    Follows endpoint draws division whole after (·.stop? n) := by
  unfold stop? at hwent
  split at hwent
  · rename_i token hfound
    split at hwent
    · rename_i htold
      rw [← Option.some.inj hwent]
      apply Follows.of_beside hdivided
      case htraffic => rfl
      case howners => rfl
      case hbeside =>
        intro selection part hshares
        rw [Bool.and_eq_true, Bool.not_eq_true'] at htold
        have hidle := hshares.isRouting hdivided htold.2
        refine ⟨_, ?_, hshares.beside.setListen n (.returned .serverClosed), rfl⟩
        unfold stop?
        simp only [hshares.listen? hfound nofun, hshares.beside.lifecycle_eq, htold.1, hidle]
        rfl
    · cases hwent
  · cases hwent

theorem follows_fail (hdivided : whole.Divided endpoint draws division)
    (hwent : whole.fail? n = some after) :
    Follows endpoint draws division whole after (·.fail? n) := by
  unfold fail? at hwent
  split at hwent
  · rename_i token hfound
    split at hwent
    · cases hwent
    · rename_i hidle
      rw [← Option.some.inj hwent]
      apply Follows.of_beside hdivided
      case htraffic => rfl
      case howners => rfl
      case hbeside =>
        intro selection part hshares
        have hidle := hshares.isRouting hdivided (by simpa using hidle)
        refine ⟨{ part.setListen n (.returned .serverClosed) with broken := token :: part.broken },
          ?_, { hshares.beside.setListen n (.returned .serverClosed) with }, rfl⟩
        unfold fail?
        simp only [hshares.listen? hfound nofun, hidle]
        rfl
  · cases hwent

/-! ## Datagrams -/

/-- A call that receives junk goes on as if nothing had come. -/
theorem eq_of_receive_junk {station after : Station MemoryStore} {sender : String}
    {datagram : List UInt8} (hjunk : Server.isJunk datagram = true)
    (hwent : station.receive? n sender datagram = some after) : after = station := by
  unfold receive? at hwent
  rw [(Server.sample?_eq_none_iff datagram).mpr hjunk] at hwent
  split at hwent
  · split at hwent
    · cases hwent
    · exact (Option.some.inj hwent).symm
  · cases hwent

/-- Receiving anything else begins to route its sample. -/
theorem exists_of_receive {sender : String} {datagram : List UInt8}
    (hvalid : Server.isJunk datagram = false)
    (hwent : whole.receive? n sender datagram = some after) :
    ∃ token sample, whole.listens[n]? = some (.receiving token) ∧ whole.isRouting n = false ∧
      Server.sample? datagram = some sample ∧
      after = { whole with
        traffic := { whole.traffic with
          calls := whole.traffic.calls ++ [{ endpoint := sender, sample := sample }] }
        owners := whole.owners ++ [n] } := by
  have hbrings : Server.sample? datagram ≠ none := fun hnothing => by
    rw [(Server.sample?_eq_none_iff datagram).mp hnothing] at hvalid
    cases hvalid
  obtain ⟨sample, hbrings⟩ := Option.ne_none_iff_exists'.mp hbrings
  unfold receive? at hwent
  rw [hbrings] at hwent
  split at hwent
  · rename_i token hfound
    split at hwent
    · cases hwent
    · rename_i hidle
      exact ⟨token, sample, hfound, by simpa using hidle, hbrings, (Option.some.inj hwent).symm⟩
  · cases hwent

theorem shareOwners_concat (hdivided : whole.Divided endpoint draws division) (n : Nat)
    (call : RouteCall) :
    { whole with
      traffic := { whole.traffic with calls := whole.traffic.calls ++ [call] }
      owners := whole.owners ++ [n] }.shareOwners endpoint =
        whole.shareOwners endpoint ++ if call.endpoint = endpoint then [n] else [] := by
  unfold shareOwners
  rw [List.map_append, List.zip_append (by simpa using hdivided.length_owners), List.filter_append,
    List.map_append]
  by_cases hown : call.endpoint = endpoint
  · simp [hown]
  · simp [hown]

theorem follows_receive {datagram : List UInt8} (hdivided : whole.Divided endpoint draws division)
    (hvalid : Server.isJunk datagram = false)
    (hwent : whole.receive? n endpoint datagram = some after) :
    Follows endpoint draws division whole after (·.receive? n endpoint datagram) := by
  obtain ⟨token, sample, hfound, hidle, hbrings, rfl⟩ := exists_of_receive hvalid hwent
  apply Follows.of_traffic
  case hfollows => exact Traffic.follows_arrive hdivided.traffic sample
  case hlength => simp [hdivided.length_owners]
  case hbeside =>
    intro selection part traffic hshares harrived _
    have hgoes : part.receive? n endpoint datagram = some { part with
        traffic := { part.traffic with
          calls := part.traffic.calls ++ [{ endpoint := endpoint, sample := sample }] }
        owners := part.owners ++ [n] } := by
      unfold receive?
      simp only [hshares.listen? hfound nofun, hshares.isRouting hdivided hidle, hbrings]
      rfl
    refine ⟨_, hgoes, { hshares.beside with owners_eq := ?_ }, Option.some.inj harrived⟩
    rw [shareOwners_concat hdivided, if_pos rfl, ← hshares.beside.owners_eq]

theorem follows_receive_of_foreign {sender : String} {datagram : List UInt8}
    (hdivided : whole.Divided endpoint draws division) (hforeign : sender ≠ endpoint)
    (hvalid : Server.isJunk datagram = false)
    (hwent : whole.receive? n sender datagram = some after) :
    Follows endpoint draws division whole after some := by
  obtain ⟨token, sample, hfound, hidle, hbrings, rfl⟩ := exists_of_receive hvalid hwent
  apply Follows.of_traffic
  case hfollows => exact Traffic.follows_arrive_of_foreign hdivided.traffic hforeign sample
  case hlength => simp [hdivided.length_owners]
  case hbeside =>
    intro selection part traffic hshares hsame _
    refine ⟨part, rfl, { hshares.beside with owners_eq := ?_ }, Option.some.inj hsame⟩
    rw [shareOwners_concat hdivided, if_neg hforeign, List.append_nil]
    exact hshares.beside.owners_eq

/-! ## Samples that are routed -/

/-- Those who received the calls are known as long as no call is added. -/
theorem Beside.goOn {traffic there : Traffic MemoryStore} (hbeside : Beside endpoint whole part)
    (hsame : traffic.calls.map (·.endpoint) = whole.traffic.calls.map (·.endpoint)) :
    Beside endpoint { whole with traffic } { part with traffic := there } := by
  refine { hbeside with owners_eq := ?_ }
  show part.owners = ((whole.owners.zip (traffic.calls.map _)).filter _).map _
  rw [hsame]
  exact hbeside.owners_eq

theorem Divided.length_owners_of_move {traffic : Traffic MemoryStore} {action : Action}
    (hdivided : whole.Divided endpoint draws division)
    (hmove : whole.traffic.Move shards action traffic)
    (harrives : ∀ endpoint sample, action ≠ .arrive endpoint sample) :
    whole.owners.length = traffic.calls.length := by
  have hlengths := congrArg List.length (hmove.endpoints_eq harrives)
  rw [List.length_map, List.length_map] at hlengths
  exact hdivided.length_owners.trans hlengths.symm

/-- The traffic of the whole goes on, and that of the part likewise. -/
theorem Follows.of_goesOn {traffic : Traffic MemoryStore} {action : Action}
    {goes : Traffic MemoryStore → Option (Traffic MemoryStore)}
    {goesOn : Station MemoryStore → Option (Station MemoryStore)}
    (hdivided : whole.Divided endpoint draws division)
    (hmove : whole.traffic.Move shards action traffic)
    (harrives : ∀ endpoint sample, action ≠ .arrive endpoint sample)
    (hfollows : Traffic.Follows endpoint draws division whole.traffic traffic goes)
    (hsame : ∀ selection part there, Part endpoint selection draws division whole part →
      goes part.traffic = some there → goesOn part = some { part with traffic := there }) :
    Follows endpoint draws division whole { whole with traffic } goesOn := by
  apply Follows.of_traffic
  case hfollows => exact hfollows
  case hlength => exact hdivided.length_owners_of_move hmove harrives
  case hbeside =>
    intro selection part there hshares hwent _
    exact ⟨_, hsame selection part there hshares hwent,
      hshares.beside.goOn (hmove.endpoints_eq harrives), rfl⟩

variable {call : RouteCall}

/-- The call to listen that received a sample is found in the part. -/
theorem Part.owner? (hshares : Part endpoint selection draws division whole part)
    (hdivided : whole.Divided endpoint draws division) (howner : whole.owners[r]? = some n)
    (hfound : whole.traffic.calls[r]? = some call) (hown : call.endpoint = endpoint) :
    part.owners[whole.traffic.callRank endpoint r]? = some n := by
  have hentry : (whole.owners.zip whole.traffic.calls)[r]? = some (n, call) :=
    List.getElem?_zip_eq_some.mpr ⟨howner, hfound⟩
  have hkinds : (whole.owners.zip whole.traffic.calls).map (·.2.endpoint == endpoint) =
      whole.traffic.calls.map (·.endpoint == endpoint) := by
    nth_rewrite 2 [← map_snd_zip hdivided]
    rw [List.map_map]
    rfl
  have hrank : rankOf (·.2.endpoint == endpoint) (whole.owners.zip whole.traffic.calls) r =
      whole.traffic.callRank endpoint r := rankOf_eq_of_map hkinds r
  have hkept := getElem?_filter_rankOf (p := (·.2.endpoint == endpoint)) hentry
    (by simpa using hown)
  rw [hshares.beside.owners_eq, shareOwners_eq, List.getElem?_map, ← hrank, hkept]
  rfl

theorem Part.route?_eq {token : Token}
    (hshares : Part endpoint selection draws division whole part)
    (hdivided : whole.Divided endpoint draws division) (howner : whole.owners[r]? = some n)
    (hfound : whole.traffic.calls[r]? = some call) (hown : call.endpoint = endpoint)
    (hreceiving : whole.listens[n]? = some (.receiving token)) :
    part.route? (whole.traffic.callRank endpoint r) =
      (part.traffic.route? (whole.traffic.callRank endpoint r)).map fun traffic =>
        if call.stage = .opening ∧ whole.registry.isFatal call.endpoint = true then
          { part.setListen n .died with traffic, broken := token :: part.broken }
        else { part with traffic } := by
  have hstage : (call.renumber (whole.registry.rank endpoint)).stage = .opening ↔
      call.stage = .opening := by
    unfold RouteCall.renumber
    cases call.stage <;> simp [RouteStage.renumber]
  have hfatal : part.registry.isFatal (call.renumber (whole.registry.rank endpoint)).endpoint =
      whole.registry.isFatal call.endpoint := by
    show part.traffic.registry.isFatal call.endpoint = _
    rw [hown]
    exact hshares.traffic.isFatal_eq
  have halive : ListenCall.receiving token ≠ .died := by simp
  unfold route?
  simp only [hshares.owner? hdivided howner hfound hown, hshares.traffic.getElem?_calls hfound hown,
    hshares.listen? hreceiving halive, hstage, hfatal]

/-- What a call that receives does when it routes a sample further. -/
theorem exists_of_route (hfound : whole.traffic.calls[r]? = some call)
    (hwent : whole.route? r = some after) :
    ∃ n token traffic, whole.owners[r]? = some n ∧
      whole.listens[n]? = some (.receiving token) ∧ whole.traffic.route? r = some traffic ∧
      after = if call.stage = .opening ∧ whole.registry.isFatal call.endpoint = true then
          { whole.setListen n .died with traffic, broken := token :: whole.broken }
        else { whole with traffic } := by
  unfold route? at hwent
  rw [hfound] at hwent
  split at hwent
  · rename_i n same howner hhere
    cases hhere
    split at hwent
    · rename_i token hreceiving
      obtain ⟨traffic, hrouted, rfl⟩ := Option.map_eq_some_iff.mp hwent
      exact ⟨n, token, traffic, howner, hreceiving, hrouted, rfl⟩
    · cases hwent
  · cases hwent

theorem follows_route (hdivided : whole.Divided endpoint draws division)
    (hfound : whole.traffic.calls[r]? = some call) (hown : call.endpoint = endpoint)
    (hdistinct : after.traffic.service.Distinct) (hwent : whole.route? r = some after) :
    Follows endpoint draws division whole after
      (·.route? (whole.traffic.callRank endpoint r)) := by
  obtain ⟨n, token, traffic, howner, hreceiving, hrouted, rfl⟩ := exists_of_route hfound hwent
  have hmove : whole.traffic.Move .single (.route r) traffic := Traffic.move_of_route hrouted
  split at hdistinct
  · rename_i hfatal
    rw [if_pos hfatal]
    apply Follows.of_traffic
    case hfollows => exact Traffic.follows_route hdivided.traffic hfound hown hdistinct hrouted
    case hlength => exact hdivided.length_owners_of_move hmove (by simp)
    case hbeside =>
      intro selection part there hshares hroutedThere _
      have hbeside : Beside endpoint { whole with traffic } { part with traffic := there } :=
        hshares.beside.goOn (hmove.endpoints_eq (by simp))
      refine ⟨{ part.setListen n .died with traffic := there, broken := token :: part.broken }, ?_,
        { hbeside.setListen n .died with }, rfl⟩
      show part.route? _ = _
      simp only [hshares.route?_eq hdivided howner hfound hown hreceiving, if_pos hfatal,
        hroutedThere]
      rfl
  · rename_i hsurvives
    rw [if_neg hsurvives]
    apply Follows.of_goesOn hdivided hmove (by simp)
    case hfollows => exact Traffic.follows_route hdivided.traffic hfound hown hdistinct hrouted
    case hsame =>
      intro selection part there hshares hroutedThere
      show part.route? _ = _
      simp only [hshares.route?_eq hdivided howner hfound hown hreceiving, if_neg hsurvives,
        hroutedThere]
      rfl

/-- A call for another endpoint goes on without the part. A call to listen that dies of it goes on
there. -/
theorem follows_route_of_foreign (hdivided : whole.Divided endpoint draws division)
    (hfound : whole.traffic.calls[r]? = some call) (hother : call.endpoint ≠ endpoint)
    (hdistinct : after.traffic.service.Distinct) (hwent : whole.route? r = some after) :
    Follows endpoint draws division whole after some := by
  obtain ⟨n, token, traffic, howner, hreceiving, hrouted, rfl⟩ := exists_of_route hfound hwent
  have hmove : whole.traffic.Move .single (.route r) traffic := Traffic.move_of_route hrouted
  split at hdistinct
  · rename_i hfatal
    rw [if_pos hfatal]
    apply Follows.of_traffic
    case hfollows =>
      exact Traffic.follows_route_of_foreign hdivided.traffic hfound hother hdistinct hrouted
    case hlength => exact hdivided.length_owners_of_move hmove (by simp)
    case hbeside =>
      intro selection part there hshares hrests _
      have hbeside : Beside endpoint { whole with traffic } part :=
        hshares.beside.goOn (hmove.endpoints_eq (by simp))
      have hlistens : List.Forall₂ ListenCall.Matches (whole.listens.set n .died)
          (part.listens.set n (.receiving token)) :=
        forall₂_set hshares.beside.listens (.inr rfl) n
      rw [set_of_getElem? (hshares.listen? hreceiving nofun)] at hlistens
      exact ⟨part, rfl, { hbeside with listens := hlistens }, Option.some.inj hrests⟩
  · rename_i hsurvives
    rw [if_neg hsurvives]
    apply Follows.of_goesOn hdivided hmove (by simp)
    case hfollows =>
      exact Traffic.follows_route_of_foreign hdivided.traffic hfound hother hdistinct hrouted
    case hsame =>
      intro selection part there hshares hrests
      rw [← Option.some.inj hrests]

/-! ## Tasks -/

theorem follows_turn {now : Nat} {id : TaskId} {step : TaskStep} {traffic : Traffic MemoryStore}
    (hdivided : whole.Divided endpoint draws division)
    (hown : whole.registry.endpointOf? id = some endpoint) (hdistinct : traffic.service.Distinct)
    (hturned : whole.traffic.turn? now id step = some traffic) :
    Follows endpoint draws division whole { whole with traffic } fun part =>
      (part.traffic.turn? now (whole.registry.rank endpoint id) step).map
        ({ part with traffic := · }) := by
  have hmove : whole.traffic.Move .single (.task now id step) traffic :=
    Traffic.move_of_turn hturned
  apply Follows.of_goesOn hdivided hmove (by simp)
  case hfollows => exact Traffic.follows_turn hdivided.traffic hown hdistinct hturned
  case hsame =>
    intro selection part there hshares hturnedThere
    show Option.map _ (part.traffic.turn? _ _ _) = _
    rw [hturnedThere]
    rfl

theorem follows_turn_of_foreign {now : Nat} {id : TaskId} {step : TaskStep}
    {traffic : Traffic MemoryStore} (hdivided : whole.Divided endpoint draws division)
    (hforeign : whole.registry.endpointOf? id ≠ some endpoint)
    (hdistinct : traffic.service.Distinct)
    (hturned : whole.traffic.turn? now id step = some traffic) :
    Follows endpoint draws division whole { whole with traffic } some := by
  have hmove : whole.traffic.Move .single (.task now id step) traffic :=
    Traffic.move_of_turn hturned
  apply Follows.of_goesOn hdivided hmove (by simp)
  case hfollows => exact Traffic.follows_turn_of_foreign hdivided.traffic hforeign hdistinct hturned
  case hsame =>
    intro selection part there hshares hrests
    rw [← Option.some.inj hrests]

/-! ## Calls to shut down -/

section Shutdown

variable {call : ShutdownCall}

/-- A call that has not closed the registry is in the part where it is in the whole. -/
theorem Part.shutdown? (hshares : Part endpoint selection draws division whole part)
    (hfound : whole.shutdowns[s]? = some call) (hwaiting : call.stage ≠ .waiting false)
    (hbusy : ∀ error, call.stage ≠ .returned error) : part.shutdowns[s]? = some call := by
  obtain ⟨there, hfoundThere, hsame⟩ := exists_of_forall₂ hshares.beside.shutdowns hfound
  rw [hfoundThere, hsame.eq hwaiting hbusy]

/-- A call is at matching stages afterwards. -/
theorem Beside.setStage {there : ShutdownCall} {stage stageThere : ShutdownStage}
    (hbeside : Beside endpoint whole part) (hdeadline : there.deadline = call.deadline)
    (hstages : stage.Matches stageThere) (s : Nat) :
    Beside endpoint (whole.setStage s call stage) (part.setStage s there stageThere) := by
  have hhere : ShutdownCall.Matches { call with stage } { there with stage := stageThere } :=
    ⟨hdeadline, hstages⟩
  exact { hbeside with shutdowns := forall₂_set hbeside.shutdowns hhere s }

theorem follows_shutdown (deadline : Duration) (hdivided : whole.Divided endpoint draws division) :
    Follows endpoint draws division whole (whole.shutdown deadline)
      fun part => some (part.shutdown deadline) := by
  have htraffic (station : Station MemoryStore) :
      (station.shutdown deadline).traffic = station.traffic := by
    unfold Station.shutdown
    split <;> rfl
  apply Follows.of_beside hdivided
  case htraffic => exact htraffic whole
  case howners =>
    unfold Station.shutdown
    split <;> rfl
  case hbeside =>
    intro selection part hshares
    have hbeside := hshares.beside
    have hbegan (stage : ShutdownStage) : List.Forall₂ ShutdownCall.Matches
        (whole.shutdowns ++ [⟨deadline, stage⟩]) (part.shutdowns ++ [⟨deadline, stage⟩]) :=
      forall₂_concat hbeside.shutdowns ⟨rfl, .same stage⟩
    refine ⟨_, rfl, ?_, htraffic part⟩
    unfold Station.shutdown
    rw [hbeside.lifecycle_eq]
    rcases whole.lifecycle.take with ⟨_ | token | ⟨token, addr⟩, lifecycle⟩
    · exact { hbeside with lifecycle_eq := rfl, shutdowns := hbegan _ }
    · exact { hbeside with lifecycle_eq := rfl, shutdowns := hbegan _ }
    · exact { hbeside with lifecycle_eq := rfl, shutdowns := hbegan _ }

/-- A call cancels the token that it took. -/
theorem follows_cancel (hdivided : whole.Divided endpoint draws division)
    (hwent : whole.cancel? s = some after) :
    Follows endpoint draws division whole after (·.cancel? s) := by
  unfold cancel? at hwent
  split at hwent
  · cases hwent
  · rename_i call hfound
    split at hwent
    · rename_i token hstage
      rw [← Option.some.inj hwent]
      apply Follows.of_beside hdivided
      case htraffic => rfl
      case howners => rfl
      case hbeside =>
        intro selection part hshares
        have hbeside : Beside endpoint
            { whole with lifecycle := whole.lifecycle.cancel token }
            { part with lifecycle := part.lifecycle.cancel token } :=
          { hshares.beside with
            lifecycle_eq := congrArg (Lifecycle.cancel · token) hshares.beside.lifecycle_eq }
        refine ⟨_, ?_, hbeside.setStage rfl (.same (.returned none)) s, rfl⟩
        unfold cancel?
        simp only [hshares.shutdown? hfound (by simp [hstage]) (by simp [hstage]), hstage]
    · rename_i token hstage
      rw [← Option.some.inj hwent]
      apply Follows.of_traffic
      case hfollows => exact Traffic.follows_beginClose hdivided.traffic
      case hlength => exact hdivided.length_owners
      case hbeside =>
        intro selection part traffic hshares hbegan _
        have hbeside : Beside endpoint
            { whole with
              lifecycle := whole.lifecycle.cancel token
              traffic := { whole.traffic with
                closers := whole.traffic.closers ++ [CloseStage.refusing] } }
            { part with
              lifecycle := part.lifecycle.cancel token
              traffic := { part.traffic with
                closers := part.traffic.closers ++ [CloseStage.refusing] } } :=
          { hshares.beside with
            lifecycle_eq := congrArg (Lifecycle.cancel · token) hshares.beside.lifecycle_eq }
        refine ⟨_, ?_, hbeside.setStage rfl (.same (.closing whole.traffic.closers.length)) s,
          Option.some.inj hbegan⟩
        unfold cancel?
        simp only [hshares.shutdown? hfound (by simp [hstage]) (by simp [hstage]), hstage,
          hshares.traffic.closers_eq]
    · cases hwent

/-- A call goes on closing the registry. -/
theorem follows_close (hdivided : whole.Divided endpoint draws division)
    (hwent : whole.close? shards s = some after) :
    Follows endpoint draws division whole after (·.close? shards s) := by
  unfold close? at hwent
  split at hwent
  · cases hwent
  · rename_i call hfound
    split at hwent
    · rename_i closer hstage
      obtain ⟨traffic, hclosed, rfl⟩ := Option.map_eq_some_iff.mp hwent
      have hmove := Traffic.move_of_close hclosed
      have hfollows := Traffic.follows_close hdivided.traffic hclosed
      have hgoes {selection : Selection} {part : Station MemoryStore}
          (hshares : Part endpoint selection draws division whole part) :
          part.close? shards s = (part.traffic.close? shards closer).map fun there =>
            if there.closers[closer]? = some .returned then
              { part with traffic := there }.setStage s call .closed
            else { part with traffic := there } := by
        unfold close?
        simp only [hshares.shutdown? hfound (by simp [hstage]) (by simp [hstage]), hstage]
      have hendpoints := hmove.endpoints_eq (by simp)
      have hlength := hdivided.length_owners_of_move hmove (by simp)
      by_cases hlast : traffic.closers[closer]? = some .returned
      · rw [if_pos hlast]
        apply Follows.of_traffic
        case hfollows => exact hfollows
        case hlength => exact hlength
        case hbeside =>
          intro selection part there hshares hclosedThere hclosers
          have hlastThere : there.closers[closer]? = some .returned :=
            (congrArg (·[closer]?) hclosers).trans hlast
          have hbeside : Beside endpoint { whole with traffic } { part with traffic := there } :=
            hshares.beside.goOn hendpoints
          refine ⟨_, ?_, hbeside.setStage rfl (.same .closed) s, rfl⟩
          rw [hgoes hshares, hclosedThere, Option.map_some, if_pos hlastThere]
      · rw [if_neg hlast]
        apply Follows.of_traffic
        case hfollows => exact hfollows
        case hlength => exact hlength
        case hbeside =>
          intro selection part there hshares hclosedThere hclosers
          have hnotLastThere : there.closers[closer]? ≠ some .returned :=
            fun hlastThere => hlast ((congrArg (·[closer]?) hclosers).symm.trans hlastThere)
          refine ⟨{ part with traffic := there }, ?_,
            hshares.beside.goOn hendpoints, rfl⟩
          rw [hgoes hshares, hclosedThere, Option.map_some, if_neg hnotLastThere]
    · cases hwent

theorem sweep?_eq_some {sender : String} (hwent : whole.sweep? shards s sender = some after) :
    ∃ call closer traffic, whole.shutdowns[s]? = some call ∧ call.stage = .closing closer ∧
      whole.traffic.cancel? shards closer sender = some traffic ∧
        after = { whole with traffic } := by
  unfold sweep? at hwent
  split at hwent
  · cases hwent
  · rename_i call hfound
    split at hwent
    · rename_i closer hstage
      obtain ⟨traffic, hcancelled, rfl⟩ := Option.map_eq_some_iff.mp hwent
      exact ⟨call, closer, traffic, hfound, hstage, hcancelled, rfl⟩
    · cases hwent

theorem follows_sweep (hdivided : whole.Divided endpoint draws division)
    (hwent : whole.sweep? shards s endpoint = some after) :
    Follows endpoint draws division whole after (·.sweep? shards s endpoint) := by
  obtain ⟨call, closer, traffic, hfound, hstage, hcancelled, rfl⟩ := sweep?_eq_some hwent
  apply Follows.of_goesOn hdivided (Traffic.move_of_cancel hcancelled) (by simp)
  case hfollows => exact Traffic.follows_cancel hdivided.traffic hcancelled
  case hsame =>
    intro selection part there hshares hcancelledThere
    unfold sweep?
    simp only [hshares.shutdown? hfound (by simp [hstage]) (by simp [hstage]), hstage,
      hcancelledThere]
    rfl

theorem follows_sweep_of_foreign {sender : String}
    (hdivided : whole.Divided endpoint draws division) (hforeign : sender ≠ endpoint)
    (hwent : whole.sweep? shards s sender = some after) :
    Follows endpoint draws division whole after some := by
  obtain ⟨call, closer, traffic, hfound, hstage, hcancelled, rfl⟩ := sweep?_eq_some hwent
  apply Follows.of_goesOn hdivided (Traffic.move_of_cancel hcancelled) (by simp)
  case hfollows => exact Traffic.follows_cancel_of_foreign hdivided.traffic hforeign hcancelled
  case hsame =>
    intro selection part there hshares hrests
    rw [← Option.some.inj hrests]

/-- When all sessions have ended, those of the endpoint have. -/
theorem Part.allEnded (hshares : Part endpoint selection draws division whole part)
    (hended : whole.registry.allEnded = true) : part.registry.allEnded = true := by
  show part.traffic.service.registry.allEnded = true
  rw [hshares.traffic.service.registry_eq]
  exact Registry.allEnded_share hended

/-- A call goes on that has closed the registry, and it goes on in the part to a matching stage. -/
theorem follows_await {next : ShutdownCall → Option ShutdownStage}
    {nextThere : Station MemoryStore → ShutdownCall → Option ShutdownStage}
    (hdivided : whole.Divided endpoint draws division) (hwent : whole.await? s next = some after)
    (hgoes : ∀ selection part call there stage,
      Part endpoint selection draws division whole part → part.shutdowns[s]? = some there →
      call.Matches there → next call = some stage →
      ∃ stageThere, nextThere part there = some stageThere ∧ stage.Matches stageThere) :
    Follows endpoint draws division whole after fun part => part.await? s (nextThere part) := by
  obtain ⟨call, stage, hfound, hgoesOn, rfl⟩ := await?_eq_some hwent
  apply Follows.of_beside hdivided
  case htraffic => rfl
  case howners => rfl
  case hbeside =>
    intro selection part hshares
    obtain ⟨there, hfoundThere, hsame⟩ := exists_of_forall₂ hshares.beside.shutdowns hfound
    obtain ⟨stageThere, hgoesOnThere, hstages⟩ :=
      hgoes selection part call there stage hshares hfoundThere hsame hgoesOn
    refine ⟨_, ?_, hshares.beside.setStage hsame.deadline_eq hstages s, rfl⟩
    unfold await?
    simp only [hfoundThere, hgoesOnThere]
    rfl

theorem follows_watch (hdivided : whole.Divided endpoint draws division)
    (hwent : whole.await? s (watchStage? whole.registry) = some after) :
    Follows endpoint draws division whole after fun part =>
      part.await? s (watchStage? part.registry) := by
  apply follows_await hdivided hwent
  intro selection part call there stage hshares hfound hsame hwatches
  unfold watchStage? at hwatches
  split at hwatches
  · rename_i hclosed
    have hequal := hsame.eq (by simp [hclosed]) (by simp [hclosed])
    refine ⟨.waiting part.registry.allEnded, by simp [watchStage?, hequal, hclosed], ?_⟩
    rw [← Option.some.inj hwatches]
    cases hended : whole.registry.allEnded with
    | true =>
        rw [hshares.allEnded hended]
        exact .same _
    | false =>
        cases part.registry.allEnded with
        | true => exact .informed
        | false => exact .same _
  · cases hwatches

theorem follows_resolve (hdivided : whole.Divided endpoint draws division)
    (hwent : whole.await? s resolveStage? = some after) :
    Follows endpoint draws division whole after (·.await? s resolveStage?) := by
  apply follows_await hdivided hwent
  intro selection part call there stage hshares hfound hsame hresolves
  have hreached : call.stage = .waiting true := by
    unfold resolveStage? at hresolves
    split at hresolves
    · assumption
    · cases hresolves
  rw [hsame.eq (by simp [hreached]) (by simp [hreached])]
  exact ⟨stage, hresolves, .same stage⟩

/-- A call that waits for its sessions knows that they have ended. -/
def isResolved (station : Station MemoryStore) (s : Nat) : Bool :=
  (station.shutdowns[s]?).any (·.stage == .waiting true)

/-- A deadline passes in the part as well, or comes too late there. -/
theorem follows_expire (hdivided : whole.Divided endpoint draws division)
    (hwent : whole.await? s (expireStage? whole.registry) = some after) :
    Follows endpoint draws division whole after fun part =>
      part.await? s (if part.isResolved s then resolveStage? else expireStage? part.registry) := by
  apply follows_await hdivided hwent
  intro selection part call there stage hshares hfound hsame hexpires
  unfold expireStage? at hexpires
  split at hexpires
  · rename_i hlate
    rw [← Option.some.inj hexpires]
    have hstages := hsame.stage
    rw [hlate] at hstages
    generalize hwaits : there.stage = stageThere at hstages
    cases hstages with
    | same =>
        have hgoes : part.isResolved s = false := by simp [isResolved, hfound, hwaits]
        refine ⟨_, ?_, .returned _ (some (.shutdownTimeout there.deadline part.registry.pending))⟩
        simp [hgoes, expireStage?, hwaits]
    | informed =>
        have hgoes : part.isResolved s = true := by simp [isResolved, hfound, hwaits]
        refine ⟨_, ?_, .returned _ none⟩
        simp [hgoes, resolveStage?, hwaits]
  · cases hexpires

end Shutdown

end Station

end RaceIngest
