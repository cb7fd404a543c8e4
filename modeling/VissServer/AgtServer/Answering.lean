import VissServer.AgtServer.Requests
import VissServer.AtServer.Answering

/-!
From which requests the access grant server gets to a response, and with it from which
messages the two token servers do.
-/
namespace VissServer.AgtServer

open Go Utils

/-- The proof of possession of an authenticated client can be taken apart, and its signature
be checked where its id is new. -/
def RequestSafe (cfg : Config) (jtiCache : List GoString) (input pop : GoString) : Prop :=
  ∀ payload, Payload.unmarshal input = some payload → authenticateClient payload = some true →
    pop ≠ [] → ({} : PopToken).Sliceable cfg.crypto pop ∧
      ∀ popToken, ({} : PopToken).unmarshal cfg.crypto pop = some (some popToken) →
        claim popToken.payloadClaims (str "jti") ∉ jtiCache → popToken.SignatureFits

/-- The three roles are cut at two plus signs. -/
theorem checkRoles_isSome (context : GoString) : (checkRoles context).isSome := by
  unfold checkRoles
  split
  · rfl
  · next hcount =>
    have hplus : str "+" = [43] := rfl
    obtain ⟨user, rest, rfl, huser, hrest⟩ := exists_cut (by omega : 0 < context.count 43)
    obtain ⟨app, device, rfl, happ, -⟩ := exists_cut (by omega : 0 < rest.count 43)
    have hfirst : slice (user ++ 43 :: (app ++ 43 :: device)) 0 user.length = some user :=
      slice_append [] (43 :: (app ++ 43 :: device)) (by simp) rfl (by omega)
    have hsecond : slice (user ++ 43 :: (app ++ 43 :: device)) (user.length + 1)
        (user.length + 1 + app.length) = some app :=
      slice_append (user ++ [43]) (43 :: device) (by simp) (by simp) (by omega)
    have hthird : (sliceFrom (user ++ 43 :: (app ++ 43 :: device))
        (user.length + 1 + app.length + 1)).isSome := by
      apply sliceFrom_isSome_iff.mpr
      simp only [List.length_append, List.length_cons]
      omega
    obtain ⟨third, hthird⟩ := Option.isSome_iff_exists.mp hthird
    simp only [hplus, index_byte_append huser, sliceFrom_cut, index_byte_append happ, hfirst,
      hsecond, hthird, Option.bind_eq_bind, Option.bind_some]
    repeat' split
    all_goals rfl

section

variable {cfg : Config} {m : Moment} {jtiCache : List GoString} {payload : Payload}
  {popToken : PopToken} {input pop : GoString}

/-- The signature is checked once more where the claims pass their checks. -/
theorem checkPop_isSome_iff :
    (checkPop cfg m payload popToken).isSome ↔ popToken.SignatureFits := by
  rw [← @PopToken.checkSignature_isSome_iff cfg.crypto]
  unfold checkPop PopToken.validate
  cases hsigned : popToken.checkSignature cfg.crypto with
  | none => simp
  | some signed =>
    simp only [Option.bind_eq_bind, Option.bind_some, Option.isSome_some, iff_true]
    split
    · rfl
    · repeat' split
      all_goals
        simp only [Option.bind_some]
        split
        all_goals rfl

theorem generateLTAgt_isSome_iff :
    (generateLTAgt cfg m jtiCache payload pop).isSome ↔
      ({} : PopToken).Sliceable cfg.crypto pop ∧
        ∀ popToken, ({} : PopToken).unmarshal cfg.crypto pop = some (some popToken) →
          claim popToken.payloadClaims (str "jti") ∉ jtiCache → popToken.SignatureFits := by
  rw [← PopToken.unmarshal_isSome_iff]
  unfold generateLTAgt
  cases ({} : PopToken).unmarshal cfg.crypto pop with
  | none => simp
  | some r =>
    cases r with
    | none => simp
    | some popToken =>
      simp only [Option.bind_eq_bind, Option.bind_some, Option.isSome_some, true_and,
        Option.some.injEq, forall_eq', ← @checkPop_isSome_iff cfg m payload]
      by_cases hjti : claim popToken.payloadClaims (str "jti") ∈ jtiCache
      · simp [addCheckJti, hjti]
      · simp only [addCheckJti, hjti, if_false, not_true_eq_false, not_false_eq_true, forall_const]
        cases hpop : checkPop cfg m payload popToken with
        | none => simp
        | some errResponse => cases errResponse <;> simp

theorem generateResponse_isSome_iff :
    (generateResponse cfg m jtiCache input pop).isSome ↔ RequestSafe cfg jtiCache input pop := by
  unfold generateResponse RequestSafe
  cases Payload.unmarshal input with
  | none => simp
  | some payload =>
    simp only [Option.some.injEq, forall_eq', ← @generateLTAgt_isSome_iff cfg m jtiCache payload]
    have hroles : (authenticateClient payload).isSome := by
      obtain ⟨valid, hvalid⟩ := Option.isSome_iff_exists.mp (checkRoles_isSome payload.context)
      simp [authenticateClient, hvalid]
    obtain ⟨authentic, hauthentic⟩ := Option.isSome_iff_exists.mp hroles
    cases authentic with
    | false => simp [hauthentic]
    | true =>
      by_cases hpop : pop = []
      · simp [hauthentic, hpop]
      · simp [hauthentic, hpop]

end

end VissServer.AgtServer
