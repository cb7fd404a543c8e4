import VissServer.AgtServer.GrantClaims
import VissServer.AtServer.Policy
import VissServer.AtServer.Steps
import VissServer.Go.Slices
import VissServer.Library.Traversals

/-!
In which contexts the purpose check gets through. GetActorRole cuts the roles of a context at
its plus signs, one for the user and two for the app, and does not look whether they are there.
The grant server checks the roles of a client before it signs their context, the access token
server looks the roles of a signed context up in its lists; each cuts the context by itself.
-/
namespace VissServer.AtServer

open Go Utils Traversals AgtServer

section

variable {context : GoString}

theorem getActorRole_user : (getActorRole 0 context).isSome ↔ 1 ≤ context.count 43 := by
  have hplus : str "+" = [43] := rfl
  by_cases hcount : 0 < context.count 43
  · obtain ⟨front, rest, rfl, hfront, -⟩ := exists_cut hcount
    simp only [getActorRole, hplus, index_byte_append hfront, if_true, slice_isSome_iff]
    refine ⟨fun _ => hcount, fun _ => ⟨by omega, by omega, ?_⟩⟩
    rw [List.length_append]
    omega
  · have hmem : 43 ∉ context := fun hmem => hcount (List.count_pos_iff.mpr hmem)
    simp only [getActorRole, hplus, index_byte_of_notMem hmem, if_true, slice_isSome_iff]
    omega

/-- The roles of the app and of the device are cut at the first two plus signs, where there
are any. -/
theorem getActorRole_cuts (context : GoString) : ∃ delimiter1 delimiter2 : ℤ,
    getActorRole 1 context = slice context (delimiter1 + 1) (delimiter1 + 1 + delimiter2) ∧
      getActorRole 2 context = sliceFrom context (delimiter1 + 1 + delimiter2 + 1) ∧
      -1 ≤ delimiter1 ∧ -1 ≤ delimiter2 ∧ delimiter1 + 1 + delimiter2 < context.length ∧
      (0 ≤ delimiter2 ↔ 2 ≤ context.count 43) := by
  have hplus : str "+" = [43] := rfl
  have hone : (1 : ℕ) ≠ 0 := by decide
  have htwo : (2 : ℕ) ≠ 0 ∧ (2 : ℕ) ≠ 1 := by decide
  by_cases hcount : 0 < context.count 43
  · obtain ⟨front, rest, rfl, hfront, hrest⟩ := exists_cut hcount
    simp only [getActorRole, hplus, index_byte_append hfront, if_neg hone, if_neg htwo.1,
      if_neg htwo.2, sliceFrom_cut, Option.bind_eq_bind, Option.bind_some, if_true]
    refine ⟨front.length, index rest [43], rfl, rfl, by omega, ?_⟩
    by_cases hmore : 0 < rest.count 43
    · obtain ⟨mid, last, rfl, hmid, -⟩ := exists_cut hmore
      rw [index_byte_append hmid]
      simp only [List.length_append, List.length_cons]
      omega
    · have hmem : 43 ∉ rest := fun hmem => hmore (List.count_pos_iff.mpr hmem)
      rw [index_byte_of_notMem hmem]
      simp only [List.length_append, List.length_cons]
      omega
  · have hmem : 43 ∉ context := fun hmem => hcount (List.count_pos_iff.mpr hmem)
    have hall : sliceFrom context (-1 + 1) = some context := by
      simp [sliceFrom, slice]
    simp only [getActorRole, hplus, index_byte_of_notMem hmem, if_neg hone, if_neg htwo.1,
      if_neg htwo.2, hall, Option.bind_eq_bind, Option.bind_some, if_true]
    exact ⟨-1, -1, rfl, rfl, by omega⟩

theorem getActorRole_app : (getActorRole 1 context).isSome ↔ 2 ≤ context.count 43 := by
  obtain ⟨delimiter1, delimiter2, happ, -, hcuts⟩ := getActorRole_cuts context
  rw [happ, slice_isSome_iff]
  omega

theorem getActorRole_device : (getActorRole 2 context).isSome := by
  obtain ⟨delimiter1, delimiter2, -, hdevice, hcuts⟩ := getActorRole_cuts context
  rw [hdevice, sliceFrom_isSome_iff]
  omega

/-- A context element whose roles can be looked up in a context with that many plus signs. -/
def RolesFound (context : GoString) (c : ContextElement) : Prop :=
  (c.user ≠ [] → 1 ≤ context.count 43) ∧ (c.app ≠ [] → 2 ≤ context.count 43)

theorem actorValid_isSome_iff {actor : ℕ} {roles : List GoString} :
    (actorValid actor context roles).isSome ↔ roles ≠ [] → (getActorRole actor context).isSome := by
  unfold actorValid
  cases hrole : getActorRole actor context with
  | some r =>
    simp only [Option.isSome_some, implies_true, iff_true]
    exact isSome_anyM fun role _ => by simp
  | none =>
    cases roles with
    | nil => simp
    | cons role roles => simp

theorem contextValid_isSome_iff {c : ContextElement} :
    (contextValid context c).isSome ↔ RolesFound context c := by
  have hdevice : (actorValid 2 context c.device).isSome :=
    actorValid_isSome_iff.mpr fun _ => getActorRole_device
  obtain ⟨device, hdevice⟩ := Option.isSome_iff_exists.mp hdevice
  rw [RolesFound, ← getActorRole_user, ← getActorRole_app, ← actorValid_isSome_iff,
    ← actorValid_isSome_iff]
  unfold contextValid
  cases huser : actorValid 0 context c.user with
  | none => simp
  | some user =>
    cases happ : actorValid 1 context c.app with
    | none => simp
    | some app => simp [hdevice]

/-- Without two plus signs no context element admits the roles. -/
theorem contextValid_ne_true {c : ContextElement} (hcount : context.count 43 < 2) :
    contextValid context c ≠ some true := by
  intro hvalid
  have hfound : RolesFound context c := contextValid_isSome_iff.mp (Option.isSome_of_eq_some hvalid)
  have happ : c.app = [] := by
    by_contra happ
    have htwo := hfound.2 happ
    omega
  simp only [contextValid, happ, actorValid, List.anyM_nil, Option.bind_eq_bind,
    Option.bind_eq_some_iff, Option.pure_def, Option.bind_some] at hvalid
  obtain ⟨user, -, device, -, hall⟩ := hvalid
  simp at hall

/-- The purpose check gets through where the context has the plus signs that the purposes
of that name ask for. -/
theorem validatePurpose_isSome_iff {cfg : Config} {purpose : GoString} :
    (validatePurpose cfg purpose context).isSome ↔
      ∀ p ∈ cfg.pList, p.short = purpose → ∀ c ∈ p.context, RolesFound context c := by
  unfold validatePurpose checkAuthorization
  by_cases hcount : 2 ≤ context.count 43
  · have hfound : ∀ c : ContextElement, RolesFound context c := fun c =>
      ⟨fun _ => by omega, fun _ => hcount⟩
    refine iff_of_true ?_ fun p _ _ c _ => hfound c
    apply isSome_anyM
    intro p _
    split
    · exact isSome_anyM fun c _ => contextValid_isSome_iff.mpr (hfound c)
    · rfl
  · have hnever : ∀ contexts : List ContextElement,
        contexts.anyM (contextValid context) ≠ some true := fun contexts =>
      anyM_ne_true fun c _ => contextValid_ne_true (by omega)
    rw [isSome_anyM_iff]
    · apply forall₂_congr
      intro p _
      split
      · next hshort =>
        rw [isSome_anyM_iff fun c _ => contextValid_ne_true (by omega)]
        simp only [contextValid_isSome_iff, hshort, forall_const]
      · next hshort => simp [hshort]
    · intro p _
      split
      · exact hnever p.context
      · simp

end

/-! ## The roles of one context at two servers -/

section

variable {context user app device : GoString}

/-- The cuts of the access token server give the texts between the plus signs. -/
theorem getActorRole_append (huser : 43 ∉ user) (happ : 43 ∉ app) :
    getActorRole 0 (user ++ 43 :: (app ++ 43 :: device)) = some user ∧
      getActorRole 1 (user ++ 43 :: (app ++ 43 :: device)) = some app ∧
      getActorRole 2 (user ++ 43 :: (app ++ 43 :: device)) = some device := by
  have hplus : str "+" = [43] := rfl
  have hone : (1 : ℕ) ≠ 0 := by decide
  have htwo : (2 : ℕ) ≠ 0 := by decide
  have htwo' : (2 : ℕ) ≠ 1 := by decide
  refine ⟨?_, ?_, ?_⟩
  · simp only [getActorRole, hplus, index_byte_append huser, if_true, slice_user]
  · simp only [getActorRole, hplus, index_byte_append huser, if_neg hone, sliceFrom_cut,
      index_byte_append happ, if_true, slice_app, Option.bind_eq_bind, Option.bind_some]
  · simp only [getActorRole, hplus, index_byte_append huser, if_neg htwo, if_neg htwo',
      sliceFrom_cut, index_byte_append happ, sliceFrom_device, Option.bind_eq_bind,
      Option.bind_some]

/-- The roles of an accepted context are those that the access token server finds in it. -/
theorem checkRoles_roles (h : checkRoles context = some true) :
    ∃ user app device, checkedRoles context = some (user, app, device) ∧
      (checkUserRole user = true ∧ checkAppRole app = true ∧ checkDeviceRole device = true) ∧
      getActorRole 0 context = some user ∧ getActorRole 1 context = some app ∧
      getActorRole 2 context = some device := by
  obtain ⟨user, app, device, rfl, ⟨huser, happ⟩, hchecks⟩ := checkRoles_parts h
  exact ⟨user, app, device, checkedRoles_append huser happ, hchecks,
    getActorRole_append huser happ⟩

/-! ## The roles that are looked up -/

/-- Some entry lists all three roles, each for its actor. -/
def RolesListed (contexts : List ContextElement) (user app device : GoString) : Prop :=
  ∃ c ∈ contexts, user ∈ c.user ∧ app ∈ c.app ∧ device ∈ c.device

instance decidableRolesListed (contexts : List ContextElement) (user app device : GoString) :
    Decidable (RolesListed contexts user app device) :=
  inferInstanceAs (Decidable (∃ c ∈ contexts, _ ∧ _ ∧ _))

/-- Whether a context of the scope at an index admits the roles. -/
def matchingContext (cfg : Config) (index : ℕ) (context : GoString) : MayPanic Bool := do
  checkAuthorization (← cfg.sList[index]?).context context

theorem actorValid_eq {actor : ℕ} {role : GoString} (h : getActorRole actor context = some role)
    (roles : List GoString) : actorValid actor context roles = some (decide (role ∈ roles)) := by
  have hstep : ∀ r ∈ roles, (getActorRole actor context).map (fun found => decide (found = r)) =
      some (decide (role = r)) := by
    intro r _
    rw [h]
    simp
  rw [actorValid, anyM_eq_some hstep, Option.some.injEq, Bool.eq_iff_iff]
  simp

theorem checkAuthorization_eq (huser : getActorRole 0 context = some user)
    (happ : getActorRole 1 context = some app) (hdevice : getActorRole 2 context = some device)
    (contexts : List ContextElement) :
    checkAuthorization contexts context = some (decide (RolesListed contexts user app device)) := by
  have hstep : ∀ c ∈ contexts, contextValid context c =
      some (decide (user ∈ c.user ∧ app ∈ c.app ∧ device ∈ c.device)) := by
    intro c _
    simp [contextValid, actorValid_eq huser, actorValid_eq happ, actorValid_eq hdevice,
      Bool.and_assoc]
  rw [checkAuthorization, anyM_eq_some hstep, Option.some.injEq, Bool.eq_iff_iff,
    List.any_eq_true, decide_eq_true_eq]
  simp only [decide_eq_true_eq, RolesListed]

/-- The three roles that the grant server checks in a context are those that the access token
server reads in it, and by which it decides on purposes and scopes. -/
def RolesAgree (cfg : Config) (context : GoString) : Prop :=
  ∃ user app device, checkedRoles context = some (user, app, device) ∧
    (getActorRole 0 context = some user ∧ getActorRole 1 context = some app ∧
      getActorRole 2 context = some device) ∧
    (∀ purpose, validatePurpose cfg purpose context = some (decide
      (∃ p ∈ cfg.pList, p.short = purpose ∧ RolesListed p.context user app device))) ∧
    ∀ (index : ℕ) e, cfg.sList[index]? = some e →
      matchingContext cfg index context = some (decide (RolesListed e.context user app device))

theorem validatePurpose_eq (cfg : Config) (huser : getActorRole 0 context = some user)
    (happ : getActorRole 1 context = some app) (hdevice : getActorRole 2 context = some device)
    (purpose : GoString) : validatePurpose cfg purpose context = some (decide
      (∃ p ∈ cfg.pList, p.short = purpose ∧ RolesListed p.context user app device)) := by
  have hstep : ∀ p ∈ cfg.pList,
      (if p.short = purpose then checkAuthorization p.context context else some false) =
        some (decide (p.short = purpose ∧ RolesListed p.context user app device)) := by
    intro p _
    rw [checkAuthorization_eq huser happ hdevice]
    split
    · next hshort => simp [hshort]
    · next hshort => simp [hshort]
  rw [validatePurpose, anyM_eq_some hstep, Option.some.injEq, Bool.eq_iff_iff]
  simp

/-- A context that the grant server accepts is read by its roles alone. -/
theorem rolesAgree_of_checkRoles (cfg : Config) (h : checkRoles context = some true) :
    RolesAgree cfg context := by
  obtain ⟨user, app, device, hroles, -, huser, happ, hdevice⟩ := checkRoles_roles h
  refine ⟨user, app, device, hroles, ⟨huser, happ, hdevice⟩,
    validatePurpose_eq cfg huser happ hdevice, ?_⟩
  intro index e he
  rw [matchingContext, he, Option.bind_eq_bind, Option.bind_some,
    checkAuthorization_eq huser happ hdevice]

end

/-- An owner with an application of the manufacturer in the vehicle. -/
theorem rolesAgree_owner : RolesAgree (sampleConfig false) (str "Owner+OEM+Vehicle") :=
  rolesAgree_of_checkRoles _ rfl

end VissServer.AtServer
