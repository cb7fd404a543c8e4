import VissServer.AgtServer.Requests
import VissServer.Go.Decimals
import VissServer.Utils.ClaimPlaces

/-!
The claims of a grant token and what their values are made of. All of them but the vin are
texts without quotes, commas and braces.
-/
namespace VissServer.AgtServer

open Go Utils

/-- The response that carries a token. -/
def responseWith (token : GoString) : GoString :=
  str "\x7b\"action\": \"agt-request\", \"token\":\"" ++ token ++ str "\"\x7d"

/-- The claims that the server decides on itself. -/
def ownClaims (m : Moment) (payload : Payload) (duration : ℤ) : List (GoString × GoString) :=
  [(str "iat", itoa m.unix), (str "exp", itoa (m.unix + duration)), (str "clx", payload.context),
    (str "aud", str "w3org/gen2"), (str "jti", getUUID m)]

/-- The claim for the key of the client, which a long term token has. -/
def keyClaims (payload : Payload) (pop : GoString) : List (GoString × GoString) :=
  if pop ≠ [] then [(str "pub", payload.key)] else []

def durationOf (pop : GoString) : ℤ := if pop ≠ [] then LT_DURATION else ST_DURATION

/-- The claims of the token that is given for a request. -/
def grantClaims (m : Moment) (payload : Payload) (pop : GoString) :
    List (GoString × GoString) :=
  (str "vin", payload.vin) :: (ownClaims m payload (durationOf pop) ++ keyClaims payload pop)

/-- The texts of random ids. -/
def UuidText (id : GoString) : Prop :=
  id.length = 36 ∧ ∀ b ∈ id, b ∈ str "-0123456789abcdef"

section Values

variable {v c : GoString}

/-- A value without quotes, commas and braces. -/
def SimpleValue (v : GoString) : Prop := ∀ b ∈ v, isPlain b = true ∧ b ≠ 44 ∧ b ≠ 123

theorem SimpleValue.isLiteral (h : SimpleValue v) : IsLiteral v :=
  isLiteral_of_isPlain fun b hb => (h b hb).1

theorem SimpleValue.commaless (h : SimpleValue v) : 44 ∉ v := fun hmem => (h 44 hmem).2.1 rfl

theorem SimpleValue.unbraced (h : SimpleValue v) : v.head? ≠ some 123 :=
  fun hhead => (h 123 (List.mem_of_mem_head? hhead)).2.2 rfl

theorem quoteless_of_isLiteral (h : IsLiteral v) : 34 ∉ v := fun hmem => (h.bytes 34 hmem).2.1 rfl

theorem simpleValue_encode (s : GoString) : SimpleValue (Base64.encode s) := by
  have hall : ∀ n : Fin 256, (Base64.decodeSextet (UInt8.ofNat n)).isSome →
      isPlain (UInt8.ofNat n) = true ∧ UInt8.ofNat n ≠ 44 ∧ UInt8.ofNat n ≠ 123 := by
    decide +kernel
  intro b hb
  have hbyte := hall ⟨b.toNat, b.toNat_lt⟩
  rw [UInt8.ofNat_toNat] at hbyte
  exact hbyte (Base64.decodeSextet_of_mem_encode hb)

/-- The names of the claims of a grant token. -/
def claimNames : List GoString :=
  [str "vin", str "iat", str "exp", str "clx", str "aud", str "jti", str "pub"]

/-- A value in which the name of no claim is found. -/
def Nameless (v : GoString) : Prop := ∀ c ∈ claimNames, index? c v = none

/-- Every name has a letter that is in no number and in no id. -/
theorem nameless_of_bytes (h : ∀ b ∈ v, b ∈ str "-0123456789abcdef") : Nameless v := by
  have hletter : ∀ c ∈ claimNames, ∃ b ∈ c, b ∉ str "-0123456789abcdef" := by decide
  intro c hc
  obtain ⟨b, hb, hno⟩ := hletter c hc
  exact index?_eq_none_of_notMem hb fun hmem => hno (h b hmem)

end Values

/-- The three roles that checkRoles cuts out of a context. -/
def checkedRoles (context : GoString) : MayPanic (GoString × GoString × GoString) := do
  let delimiter1 := index context (str "+")
  let rest ← sliceFrom context (delimiter1 + 1)
  let delimiter2 := index rest (str "+")
  let userRole ← slice context 0 delimiter1
  let appRole ← slice context (delimiter1 + 1) (delimiter1 + 1 + delimiter2)
  let deviceRole ← sliceFrom context (delimiter1 + 1 + delimiter2 + 1)
  some (userRole, appRole, deviceRole)

section Roles

variable {context user app device : GoString}

theorem slice_user (rest : GoString) :
    slice (user ++ 43 :: rest) 0 user.length = some user :=
  slice_append [] (43 :: rest) (by simp) rfl (by omega)

theorem slice_app : slice (user ++ 43 :: (app ++ 43 :: device)) (user.length + 1)
    (user.length + 1 + app.length) = some app :=
  slice_append (user ++ [43]) (43 :: device) (by simp) (by simp) (by omega)

theorem sliceFrom_device : sliceFrom (user ++ 43 :: (app ++ 43 :: device))
    (user.length + 1 + app.length + 1) = some device :=
  slice_append (user ++ 43 :: (app ++ [43])) [] (by simp) (by simp; omega) (by simp; omega)

/-- The cuts of the grant server give the texts between the plus signs. -/
theorem checkedRoles_append (huser : 43 ∉ user) (happ : 43 ∉ app) :
    checkedRoles (user ++ 43 :: (app ++ 43 :: device)) = some (user, app, device) := by
  have hplus : str "+" = [43] := rfl
  simp only [checkedRoles, hplus, index_byte_append huser, sliceFrom_cut,
    index_byte_append happ, slice_user, slice_app, sliceFrom_device, Option.bind_eq_bind,
    Option.bind_some]

/-- With two plus signs checkRoles decides by those three roles. -/
theorem checkRoles_eq (context : GoString) : checkRoles context =
    if context.count 43 ≠ 2 then some false
    else (checkedRoles context).map fun roles =>
      checkUserRole roles.1 && checkAppRole roles.2.1 && checkDeviceRole roles.2.2 := by
  unfold checkRoles
  by_cases hcount : context.count 43 ≠ 2
  · rw [if_pos hcount, if_pos hcount]
  · rw [if_neg hcount, if_neg hcount]
    have hplus : str "+" = [43] := rfl
    obtain ⟨user, rest, rfl, huser, hrest⟩ := exists_cut (by omega : 0 < context.count 43)
    obtain ⟨app, device, rfl, happ, -⟩ := exists_cut (by omega : 0 < rest.count 43)
    rw [checkedRoles_append huser happ, Option.map_some]
    simp only [hplus, index_byte_append huser, sliceFrom_cut, index_byte_append happ,
      slice_user, slice_app, sliceFrom_device, Option.bind_eq_bind, Option.bind_some]
    cases checkUserRole user with
    | false => rfl
    | true =>
      cases checkAppRole app with
      | false => rfl
      | true => rfl

/-- A context that is accepted has one of the user roles, one of the application roles and one
of the device roles. -/
theorem checkRoles_parts (h : checkRoles context = some true) :
    ∃ user app device, context = user ++ 43 :: (app ++ 43 :: device) ∧ (43 ∉ user ∧ 43 ∉ app) ∧
      checkUserRole user = true ∧ checkAppRole app = true ∧ checkDeviceRole device = true := by
  rw [checkRoles_eq] at h
  split at h
  · simp at h
  · next hcount =>
    obtain ⟨user, rest, rfl, huser, hrest⟩ := exists_cut (by omega : 0 < context.count 43)
    obtain ⟨app, device, rfl, happ, -⟩ := exists_cut (by omega : 0 < rest.count 43)
    rw [checkedRoles_append huser happ, Option.map_some, Option.some.injEq,
      Bool.and_eq_true, Bool.and_eq_true] at h
    exact ⟨user, app, device, rfl, ⟨huser, happ⟩, h.1.1, h.1.2, h.2⟩

def userRoles : List GoString :=
  [str "OEM", str "Dealer", str "Independent", str "Owner", str "Driver", str "Passenger"]

def appRoles : List GoString := [str "OEM", str "Third party"]

def deviceRoles : List GoString := [str "Vehicle", str "Nomadic", str "Cloud"]

theorem mem_roles {user app device : GoString} (huser : checkUserRole user = true)
    (happ : checkAppRole app = true) (hdevice : checkDeviceRole device = true) :
    user ∈ userRoles ∧ app ∈ appRoles ∧ device ∈ deviceRoles := by
  simp only [checkUserRole, checkAppRole, checkDeviceRole, Bool.or_eq_true,
    decide_eq_true_eq] at huser happ hdevice
  simp only [userRoles, appRoles, deviceRoles, List.mem_cons, List.not_mem_nil, or_false]
  exact ⟨by tauto, happ, by tauto⟩

theorem context_simple (h : checkRoles context = some true) : SimpleValue context := by
  have hall : ∀ role ∈ userRoles ++ appRoles ++ deviceRoles, ∀ b ∈ role,
      isPlain b = true ∧ b ≠ 44 ∧ b ≠ 123 := by decide +kernel
  obtain ⟨user, app, device, rfl, -, huser, happ, hdevice⟩ := checkRoles_parts h
  obtain ⟨huser, happ, hdevice⟩ := mem_roles huser happ hdevice
  intro b hb
  simp only [List.mem_append, List.mem_cons] at hb
  rcases hb with hb | rfl | hb | rfl | hb
  · exact hall user (by simp [huser]) b hb
  · decide
  · exact hall app (by simp [happ]) b hb
  · decide
  · exact hall device (by simp [hdevice]) b hb

theorem context_nameless (h : checkRoles context = some true) : Nameless context := by
  have hall : ∀ role ∈ userRoles ++ appRoles ++ deviceRoles, ∀ c ∈ claimNames,
      index? c role = none := by decide
  have hname : ∀ c ∈ claimNames, 43 ∉ c ∧ c ≠ [] := by decide
  obtain ⟨user, app, device, rfl, -, huser, happ, hdevice⟩ := checkRoles_parts h
  obtain ⟨huser, happ, hdevice⟩ := mem_roles huser happ hdevice
  intro c hc
  obtain ⟨hplus, hne⟩ := hname c hc
  rw [index?_separated hplus hne, index?_separated hplus hne, hall user (by simp [huser]) c hc,
    hall app (by simp [happ]) c hc, hall device (by simp [hdevice]) c hc]
  rfl

end Roles

section Claims

variable {m : Moment} {payload : Payload} {pop c : GoString} {p : GoString × GoString}

/-- What the environment and the checks of the server say about a request that is granted. -/
structure Granted (m : Moment) (payload : Payload) (pop : GoString) : Prop where
  uuid : ∀ id, m.uuid = some id → UuidText id
  roles : checkRoles payload.context = some true
  key : pop ≠ [] → ∃ bytes, payload.key = Base64.encode bytes ∧ payload.key ≠ []

theorem ownClaims_settled (h : Granted m payload pop) {duration : ℤ}
    (hp : p ∈ ownClaims m payload duration) : SimpleValue p.2 ∧ Nameless p.2 := by
  have hbytes : ∀ v : GoString, (∀ b ∈ v, b ∈ str "-0123456789abcdef") →
      SimpleValue v ∧ Nameless v := by
    have hall : ∀ b ∈ str "-0123456789abcdef", isPlain b = true ∧ b ≠ 44 ∧ b ≠ 123 := by decide +kernel
    exact fun v hv => ⟨fun b hb => hall b (hv b hb), nameless_of_bytes hv⟩
  have hnumber : ∀ z : ℤ, SimpleValue (itoa z) ∧ Nameless (itoa z) := by
    have hall : ∀ n : Fin 256, UInt8.ofNat n = 45 ∨ isDigit (UInt8.ofNat n) = true →
        UInt8.ofNat n ∈ str "-0123456789abcdef" := by decide +kernel
    refine fun z => hbytes _ fun b hb => ?_
    have hbyte := hall ⟨b.toNat, b.toNat_lt⟩
    rw [UInt8.ofNat_toNat] at hbyte
    exact hbyte (itoa_bytes hb)
  simp only [ownClaims, List.mem_cons, List.not_mem_nil, or_false] at hp
  rcases hp with rfl | rfl | rfl | rfl | rfl
  · exact hnumber _
  · exact hnumber _
  · exact ⟨context_simple h.roles, context_nameless h.roles⟩
  · have hplain : ∀ b ∈ str "w3org/gen2", isPlain b = true ∧ b ≠ 44 ∧ b ≠ 123 := by decide +kernel
    have hnameless : ∀ c ∈ claimNames, index? c (str "w3org/gen2") = none := by decide
    exact ⟨hplain, hnameless⟩
  · unfold getUUID
    cases hid : m.uuid with
    | none => exact hbytes [] (by simp)
    | some id => exact hbytes id (h.uuid id hid).2

theorem mem_keyClaims (hp : p ∈ keyClaims payload pop) :
    pop ≠ [] ∧ p = (str "pub", payload.key) := by
  unfold keyClaims at hp
  split at hp
  · next hpop => exact ⟨hpop, List.mem_singleton.mp hp⟩
  · simp at hp

theorem keyClaims_settled (h : Granted m payload pop) (hp : p ∈ keyClaims payload pop) :
    SimpleValue p.2 ∧ p.2 ≠ [] := by
  obtain ⟨hpop, rfl⟩ := mem_keyClaims hp
  obtain ⟨bytes, hkey, hne⟩ := h.key hpop
  refine ⟨?_, hne⟩
  rw [hkey]
  exact simpleValue_encode bytes

theorem ownClaims_names {duration : ℤ} (hp : p ∈ ownClaims m payload duration) :
    p.1 ∈ claimNames ∧ p.1 ≠ str "vin" ∧ p.1 ≠ str "pub" := by
  have hall : ∀ c ∈ [str "iat", str "exp", str "clx", str "aud", str "jti"],
      c ∈ claimNames ∧ c ≠ str "vin" ∧ c ≠ str "pub" := by decide
  exact hall p.1 (List.mem_map_of_mem hp)

theorem grantClaims_names (m : Moment) (payload : Payload) (pop : GoString) :
    ((grantClaims m payload pop).map Prod.fst).Nodup ∧
      ∀ p ∈ grantClaims m payload pop, p.1 ∈ claimNames := by
  unfold grantClaims keyClaims ownClaims
  split
  · simp only [List.cons_append, List.nil_append, List.map_cons, List.map_nil]
    exact ⟨by decide, by simp [claimNames]⟩
  · simp only [List.append_nil, List.map_cons, List.map_nil]
    exact ⟨by decide, by simp [claimNames]⟩

/-- All names can be searched for, and none is found in another one. -/
theorem searchName_of_mem (hc : c ∈ claimNames) :
    SearchName c ∧ IsLiteral c ∧ 44 ∉ c ∧ ∀ c' ∈ claimNames, c ≠ c' → index? c c' = none := by
  have hall : ∀ c ∈ claimNames, (34 ∉ c ∧ 2 ≤ c.length) ∧ c.all isPlain = true ∧ 44 ∉ c ∧
      ∀ c' ∈ claimNames, c ≠ c' → index? c c' = none := by decide
  obtain ⟨⟨hquote, htwo⟩, hplain, hrest⟩ := hall c hc
  exact ⟨⟨hquote, htwo⟩, isLiteral_of_all hplain, hrest⟩

end Claims

end VissServer.AgtServer
