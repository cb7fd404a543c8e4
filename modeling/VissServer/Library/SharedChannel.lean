import Mathlib.Data.List.Basic
import VissServer.Library.Runs

/-!
Clients that share one unbuffered channel with the loop that serves them. A client sends a
number of messages and then receives one; what it sends is received by the loop or by any
client that waits, and what the loop sends by any client that waits. Each message carries the
client that sent it, and each reply the messages it was computed from. Where the messages of
one client are taken only while no other client has sent without having received, each client
receives the reply to its own messages.
-/
namespace SharedChannel

open Runs

/-- A loop over the channel, with the inputs of the environment to its receives and to its
other steps. -/
structure Loop (σ ρ ι μ : Type*) where
  /-- The state after a message, where the loop is at a receive. -/
  receive : σ → ρ → ℕ × μ → Option σ
  /-- The messages that the reply was computed from, the reply and the state after it, where
  the loop is at a send. -/
  send : σ → Option (List (ℕ × μ) × μ × σ)
  /-- The state after a step that is not about the channel. -/
  internal : σ → ι → Option σ

/-- What a client that waits receives. -/
inductive Letter (μ : Type*)
  | request (owner : ℕ) (text : μ)
  | reply (sources : List (ℕ × μ)) (text : μ)
  deriving DecidableEq

/-- A client sends its messages one after the other, waits, and has received. -/
inductive Phase (μ : Type*)
  | sending (sent : ℕ)
  | waiting
  | served (letter : Letter μ)
  deriving DecidableEq

structure Client (μ : Type*) where
  own : List μ
  phase : Phase μ
  deriving DecidableEq

structure Network (σ μ : Type*) where
  loop : σ
  clients : List (Client μ)

/-- The steps of the network. -/
inductive Event (ρ ι μ : Type*)
  /-- A client comes with its messages. -/
  | arrive (own : List μ)
  /-- The loop receives the message of a client. -/
  | take (e : ρ) (i : ℕ)
  /-- A client receives what the loop sends. -/
  | reply (j : ℕ)
  /-- The second client receives the message of the first one. -/
  | cross (i j : ℕ)
  | internal (e : ι)
  deriving DecidableEq

section

variable {σ ρ ι μ : Type*}

namespace Client

/-- The message that the client is about to send. -/
def next (c : Client μ) : Option μ :=
  match c.phase with
  | .sending sent => c.own[sent]?
  | _ => none

def advance (c : Client μ) : Client μ :=
  match c.phase with
  | .sending sent =>
      { c with phase := if sent + 1 < c.own.length then .sending (sent + 1) else .waiting }
  | _ => c

/-- What the client has sent without having received. -/
def sent (c : Client μ) : List μ :=
  match c.phase with
  | .sending sent => c.own.take sent
  | .waiting => c.own
  | .served _ => []

def waits (c : Client μ) : Bool :=
  match c.phase with
  | .waiting => true
  | _ => false

variable {c : Client μ} {text : μ}

@[simp] theorem advance_own : c.advance.own = c.own := by
  unfold advance
  split <;> rfl

theorem sent_advance (h : c.next = some text) : c.advance.sent = c.sent ++ [text] := by
  unfold next at h
  split at h
  · next k hphase =>
    obtain ⟨hk, rfl⟩ := List.getElem?_eq_some_iff.mp h
    have htake : c.own.take k ++ [c.own[k]] = c.own.take (k + 1) :=
      (List.take_succ_eq_append_getElem hk).symm
    simp only [advance, sent, hphase, htake]
    by_cases hmore : k + 1 < c.own.length
    · rw [if_pos hmore]
    · rw [if_neg hmore, List.take_of_length_le (by omega)]
  · cases h

theorem length_sent_le (c : Client μ) : c.sent.length ≤ c.own.length := by
  unfold sent
  split
  · exact List.length_take_le' _ _
  · exact Nat.le_refl _
  · exact Nat.zero_le _

theorem sent_of_waits (h : c.waits = true) : c.sent = c.own := by
  unfold waits at h
  unfold sent
  split at h
  · next hphase => simp [hphase]
  · cases h

/-- A client that sends has not received. -/
theorem phase_advance (h : c.next = some text) (letter : Letter μ) :
    c.advance.phase ≠ .served letter := by
  unfold next at h
  split at h
  · next k hphase =>
    simp only [advance, hphase]
    split <;> nofun
  · cases h

end Client

namespace Network

variable (x : Network σ μ)

def sent (j : ℕ) : List μ := (x.clients[j]?).elim [] Client.sent

/-- The client and the message that it is about to send. -/
def offered (i : ℕ) : Option (Client μ × μ) :=
  (x.clients[i]?).bind fun c => c.next.map fun text => (c, text)

def setClient (i : ℕ) (c : Client μ) : Network σ μ := { x with clients := x.clients.set i c }

/-- A client that waits receives. -/
def deliver (j : ℕ) (letter : Letter μ) : Option (Network σ μ) :=
  (x.clients[j]?).bind fun c =>
    if c.waits then some (x.setClient j { c with phase := .served letter }) else none

end Network

/-- A step, possible where both sides of the channel are at it. A client comes with as many
messages as the loop takes for a reply. -/
def step (loop : Loop σ ρ ι μ) (size : ℕ) (x : Network σ μ) : Event ρ ι μ → Option (Network σ μ)
  | .arrive own =>
      if own.length = size then some { x with clients := x.clients ++ [⟨own, .sending 0⟩] }
      else none
  | .take e i =>
      (x.offered i).bind fun r =>
        (loop.receive x.loop e (i, r.2)).map fun s => { x with loop := s }.setClient i r.1.advance
  | .reply j =>
      (loop.send x.loop).bind fun r => { x with loop := r.2.2 }.deliver j (.reply r.1 r.2.1)
  | .cross i j =>
      (x.offered i).bind fun r =>
        (x.deliver j (.request i r.2)).map fun y => y.setClient i r.1.advance
  | .internal e => (loop.internal x.loop e).map fun s => { x with loop := s }

def networkStep (loop : Loop σ ρ ι μ) (size : ℕ) (x : Network σ μ) (e : Event ρ ι μ) :
    Option (Network σ μ × Unit) := (step loop size x e).map fun x' => (x', ())

/-- No client is there yet, and the loop is at its start. -/
def Started (start : σ → Prop) (x : Network σ μ) : Prop := start x.loop ∧ x.clients = []

/-- Each client that has received got the reply to its own messages, and the loop computed it
from them. -/
def Matched (answers : List μ → μ → Prop) (x : Network σ μ) : Prop :=
  ∀ (j : ℕ) (c : Client μ) (letter : Letter μ), x.clients[j]? = some c →
    c.phase = .served letter → ∃ text, letter = .reply (c.own.map (Prod.mk j)) text ∧ answers c.own text

/-- No other client has sent without having received. -/
def Alone (x : Network σ μ) (i : ℕ) : Prop := ∀ j, j ≠ i → x.sent j = []

instance (x : Network σ μ) (i : ℕ) : Decidable (Alone x i) :=
  decidable_of_iff (∀ j < x.clients.length, j ≠ i → x.sent j = []) (by
    refine ⟨fun h j hj => ?_, fun h j _ => h j⟩
    by_cases hlt : j < x.clients.length
    · exact h j hlt hj
    · rw [Network.sent, List.getElem?_eq_none_iff.mpr (by omega)]
      rfl)

/-- The messages of a client are taken only while it is alone, and the other steps of the
loop are quiet. -/
def InTurn (quiet : σ → ι → Prop) (x : Network σ μ) : Event ρ ι μ → Prop
  | .arrive _ => True
  | .take _ i => Alone x i
  | .reply _ => True
  | .cross i _ => Alone x i
  | .internal e => quiet x.loop e

instance (quiet : σ → ι → Prop) [∀ s e, Decidable (quiet s e)] (x : Network σ μ) :
    ∀ e : Event ρ ι μ, Decidable (InTurn quiet x e)
  | .arrive _ | .reply _ => inferInstanceAs (Decidable True)
  | .take _ i | .cross i _ => inferInstanceAs (Decidable (Alone x i))
  | .internal e => inferInstanceAs (Decidable (quiet x.loop e))

/-- A client that has received the request of another one. -/
theorem not_matched {answers : List μ → μ → Prop} {x : Network σ μ} {i j : ℕ} {text : μ}
    (h : (x.clients[j]?).map Client.phase = some (.served (.request i text))) :
    ¬ Matched answers x := by
  intro hmatched
  obtain ⟨c, hc, hphase⟩ := Option.map_eq_some_iff.mp h
  obtain ⟨reply, hletter, -⟩ := hmatched j c _ hc hphase
  cases hletter

/-- The loop computes each reply from the messages it received since the last one, at least
where these are not more than it takes for one reply. -/
structure Loop.Regular (loop : Loop σ ρ ι μ) (size : ℕ) (inv : σ → Prop) (quiet : σ → ι → Prop)
    (held : σ → List (ℕ × μ)) (answers : List μ → μ → Prop) : Prop where
  receive : ∀ {s e p s'}, inv s → loop.receive s e p = some s' →
    inv s' ∧ held s' = held s ++ [p]
  send : ∀ {s sources text s'}, inv s → (held s).length ≤ size →
    loop.send s = some (sources, text, s') →
    inv s' ∧ held s' = [] ∧ held s = sources ∧ sources.length = size ∧
      answers (sources.map Prod.snd) text
  internal : ∀ {s e s'}, inv s → (held s).length ≤ size → quiet s e →
    loop.internal s e = some s' → inv s' ∧ held s' = held s

namespace Network

variable {x y : Network σ μ} {i j : ℕ} {c : Client μ} {text : μ} {letter : Letter μ}

theorem sent_of_client (hc : x.clients[j]? = some c) : x.sent j = c.sent := by
  simp [sent, hc]

theorem offered_some {r : Client μ × μ} (h : x.offered i = some r) :
    x.clients[i]? = some r.1 ∧ r.1.next = some r.2 := by
  obtain ⟨c, hc, hnext⟩ := Option.bind_eq_some_iff.mp h
  obtain ⟨text, htext, rfl⟩ := Option.map_eq_some_iff.mp hnext
  exact ⟨hc, htext⟩

theorem deliver_some (h : x.deliver j letter = some y) :
    ∃ c, x.clients[j]? = some c ∧ c.waits = true ∧
      y = x.setClient j { c with phase := .served letter } := by
  obtain ⟨c, hc, hwaits⟩ := Option.bind_eq_some_iff.mp h
  obtain ⟨hwaits, hy⟩ := Option.ite_none_right_eq_some.mp hwaits
  exact ⟨c, hc, hwaits, (Option.some.inj hy).symm⟩

theorem setClient_self (hc : x.clients[i]? = some c) (c' : Client μ) :
    (x.setClient i c').clients[i]? = some c' := by
  obtain ⟨hi, -⟩ := List.getElem?_eq_some_iff.mp hc
  simp [setClient, hi]

theorem setClient_other (c' : Client μ) (hne : j ≠ i) :
    (x.setClient i c').clients[j]? = x.clients[j]? := by
  rw [setClient, List.getElem?_set_ne hne.symm]

theorem sent_setClient_other (c' : Client μ) (hne : j ≠ i) :
    (x.setClient i c').sent j = x.sent j := by
  rw [sent, setClient_other c' hne, sent]

end Network

/-- What holds in every state of a run in turn: one client at most has sent without having
received, and the loop holds what it has sent. -/
structure Sound (size : ℕ) (inv : σ → Prop) (held : σ → List (ℕ × μ))
    (answers : List μ → μ → Prop) (x : Network σ μ) : Prop where
  loop : inv x.loop
  own : ∀ c ∈ x.clients, c.own.length = size
  turn : ∃ i, Alone x i ∧ held x.loop = (x.sent i).map (Prod.mk i)
  matched : Matched answers x

section

variable {loop : Loop σ ρ ι μ} {size : ℕ} {inv : σ → Prop} {quiet : σ → ι → Prop}
  {held : σ → List (ℕ × μ)} {answers : List μ → μ → Prop} {x y : Network σ μ} {i j : ℕ}
  {c : Client μ}

theorem Sound.sent_le (h : Sound size inv held answers x) (j : ℕ) : (x.sent j).length ≤ size := by
  unfold Network.sent
  cases hc : x.clients[j]? with
  | none => exact Nat.zero_le _
  | some c =>
    rw [Option.elim_some, ← h.own c (List.mem_of_getElem? hc)]
    exact c.length_sent_le

theorem Sound.held_le (h : Sound size inv held answers x) : (held x.loop).length ≤ size := by
  obtain ⟨i, -, hheld⟩ := h.turn
  rw [hheld, List.length_map]
  exact h.sent_le i

/-- The client whose turn it is can be any that is alone. -/
theorem Sound.held_of_alone (h : Sound size inv held answers x) (halone : Alone x i) :
    held x.loop = (x.sent i).map (Prod.mk i) := by
  obtain ⟨k, hk, hheld⟩ := h.turn
  by_cases hik : i = k
  · rw [hik, hheld]
  · rw [hheld, hk i hik, halone k (Ne.symm hik)]
    rfl

theorem Sound.alone_of_sent (h : Sound size inv held answers x) (hsent : x.sent j ≠ []) :
    Alone x j := by
  obtain ⟨k, hk, -⟩ := h.turn
  by_cases hjk : j = k
  · exact hjk ▸ hk
  · exact absurd (hk j hjk) hsent

/-- A client that sends changes nothing for those that have received. -/
theorem Matched.set (h : Matched answers x) (hc : x.clients[i]? = some c) {c' : Client μ}
    (hphase : ∀ letter, c'.phase = .served letter →
      ∃ text, letter = .reply (c'.own.map (Prod.mk i)) text ∧ answers c'.own text) :
    Matched answers (x.setClient i c') := by
  intro j d letter hd hserved
  by_cases hji : j = i
  · subst hji
    rw [Network.setClient_self hc] at hd
    obtain rfl := Option.some.inj hd
    exact hphase letter hserved
  · rw [Network.setClient_other _ hji] at hd
    exact h j d letter hd hserved

theorem Sound.own_set (h : Sound size inv held answers x) (hc : x.clients[i]? = some c)
    {c' : Client μ} (hown : c'.own = c.own) :
    ∀ d ∈ (x.setClient i c').clients, d.own.length = size := by
  intro d hd
  obtain hd | rfl := List.mem_or_eq_of_mem_set hd
  · exact h.own d hd
  · rw [hown]
    exact h.own c (List.mem_of_getElem? hc)

theorem Sound.arrive (h : Sound size inv held answers x) {own : List μ}
    (hown : own.length = size) :
    Sound size inv held answers { x with clients := x.clients ++ [⟨own, .sending 0⟩] } := by
  have hsent : ∀ j, Network.sent { x with clients := x.clients ++ [⟨own, .sending 0⟩] } j =
      x.sent j := by
    intro j
    unfold Network.sent
    by_cases hj : j < x.clients.length
    · rw [List.getElem?_append_left hj]
    · have hnone : x.clients[j]? = none := List.getElem?_eq_none_iff.mpr (by omega)
      rw [List.getElem?_append_right (by omega), hnone]
      cases j - x.clients.length with
      | zero => rfl
      | succ k => rfl
  obtain ⟨i, halone, hheld⟩ := h.turn
  refine ⟨h.loop, ?_, ⟨i, fun j hj => (hsent j).trans (halone j hj), ?_⟩, ?_⟩
  · intro c hc
    obtain hc | hc := List.mem_append.mp hc
    · exact h.own c hc
    · rw [List.mem_singleton.mp hc]
      exact hown
  · rw [hsent]
    exact hheld
  · intro j c letter hc hserved
    by_cases hj : j < x.clients.length
    · rw [List.getElem?_append_left hj] at hc
      exact h.matched j c letter hc hserved
    · rw [List.getElem?_append_right (by omega)] at hc
      cases hk : j - x.clients.length with
      | zero =>
        rw [hk] at hc
        obtain rfl := Option.some.inj hc
        cases hserved
      | succ k =>
        rw [hk] at hc
        cases hc

theorem Sound.take (hloop : loop.Regular size inv quiet held answers)
    (h : Sound size inv held answers x) (halone : Alone x i) {r : Client μ × μ}
    (hoffered : x.offered i = some r) {e : ρ} {s : σ}
    (hreceive : loop.receive x.loop e (i, r.2) = some s) :
    Sound size inv held answers ({ x with loop := s }.setClient i r.1.advance) := by
  obtain ⟨c, text⟩ := r
  obtain ⟨hc, hnext⟩ := Network.offered_some hoffered
  obtain ⟨hinv, hheld⟩ := hloop.receive h.loop hreceive
  refine ⟨hinv, h.own_set hc Client.advance_own, ⟨i, ?_, ?_⟩, ?_⟩
  · intro j hj
    rw [Network.sent_setClient_other _ hj]
    exact halone j hj
  · have hself : ({ x with loop := s }.setClient i c.advance).clients[i]? = some c.advance :=
      Network.setClient_self (x := { x with loop := s }) hc _
    have hloop' : ({ x with loop := s }.setClient i c.advance).loop = s := rfl
    rw [hloop', hheld, h.held_of_alone halone, Network.sent_of_client hself,
      Client.sent_advance hnext, Network.sent_of_client hc, List.map_append]
    rfl
  · refine Matched.set (x := { x with loop := s }) h.matched hc ?_
    intro letter hserved
    exact absurd hserved (Client.phase_advance hnext letter)

theorem Sound.reply (hloop : loop.Regular size inv quiet held answers) (hsize : 0 < size)
    (h : Sound size inv held answers x) {sources : List (ℕ × μ)} {text : μ} {s : σ}
    (hsend : loop.send x.loop = some (sources, text, s))
    (hdeliver : { x with loop := s }.deliver j (.reply sources text) = some y) :
    Sound size inv held answers y := by
  obtain ⟨c, hc, hwaits, rfl⟩ := Network.deliver_some hdeliver
  obtain ⟨hinv, hempty, hheld, hlength, hanswers⟩ := hloop.send h.loop h.held_le hsend
  have hown : c.own.length = size := h.own c (List.mem_of_getElem? hc)
  have hsent : x.sent j = c.own := by
    have hcaller : x.clients[j]? = some c := hc
    rw [Network.sent_of_client hcaller, Client.sent_of_waits hwaits]
  have halone : Alone x j := by
    apply h.alone_of_sent
    rw [hsent]
    exact List.ne_nil_of_length_pos (by omega)
  have hsources : sources = c.own.map (Prod.mk j) := by
    rw [← hheld, h.held_of_alone halone, hsent]
  have htexts : sources.map Prod.snd = c.own := by
    rw [hsources, List.map_map]
    exact List.map_id _
  have hself : ({ x with loop := s }.setClient j { c with
      phase := .served (.reply sources text) }).clients[j]? =
      some { c with phase := .served (.reply sources text) } :=
    Network.setClient_self (x := { x with loop := s }) hc _
  refine ⟨hinv, h.own_set hc rfl, ⟨j, ?_, ?_⟩, ?_⟩
  · intro k hk
    rw [Network.sent_setClient_other _ hk]
    exact halone k hk
  · rw [Network.sent_of_client hself]
    exact hempty
  · refine Matched.set (x := { x with loop := s }) h.matched hc ?_
    intro letter hserved
    obtain rfl := Phase.served.inj hserved
    exact ⟨text, by rw [hsources], htexts ▸ hanswers⟩

/-- The message of a client that is alone does not reach another client. -/
theorem Sound.not_cross (h : Sound size inv held answers x) (hsize : 0 < size)
    (halone : Alone x i) {r : Client μ × μ} (hoffered : x.offered i = some r) :
    x.deliver j (.request i r.2) = none := by
  by_contra hsome
  obtain ⟨y, hdeliver⟩ := Option.ne_none_iff_exists'.mp hsome
  obtain ⟨c, hc, hwaits, -⟩ := Network.deliver_some hdeliver
  obtain ⟨hi, hnext⟩ := Network.offered_some hoffered
  by_cases hji : j = i
  · subst hji
    obtain rfl := Option.some.inj (hc.symm.trans hi)
    unfold Client.waits at hwaits
    unfold Client.next at hnext
    split at hwaits
    · next hphase => simp [hphase] at hnext
    · cases hwaits
  · have hsent := halone j hji
    rw [Network.sent_of_client hc, Client.sent_of_waits hwaits] at hsent
    have hown := h.own c (List.mem_of_getElem? hc)
    rw [hsent] at hown
    exact absurd hown (Nat.ne_of_lt hsize)

theorem Sound.step (hloop : loop.Regular size inv quiet held answers) (hsize : 0 < size)
    (h : Sound size inv held answers x) {e : Event ρ ι μ} (hturn : InTurn quiet x e)
    (hstep : step loop size x e = some y) : Sound size inv held answers y := by
  cases e with
  | arrive own =>
    obtain ⟨hown, hy⟩ := Option.ite_none_right_eq_some.mp hstep
    rw [← Option.some.inj hy]
    exact h.arrive hown
  | take e i =>
    obtain ⟨r, hoffered, hreceive⟩ := Option.bind_eq_some_iff.mp hstep
    obtain ⟨s, hs, rfl⟩ := Option.map_eq_some_iff.mp hreceive
    exact h.take hloop hturn hoffered hs
  | reply j =>
    obtain ⟨⟨sources, text, s⟩, hsend, hdeliver⟩ := Option.bind_eq_some_iff.mp hstep
    exact h.reply hloop hsize hsend hdeliver
  | cross i j =>
    obtain ⟨r, hoffered, hdeliver⟩ := Option.bind_eq_some_iff.mp hstep
    rw [h.not_cross hsize hturn hoffered] at hdeliver
    cases hdeliver
  | internal e =>
    obtain ⟨s, hs, rfl⟩ := Option.map_eq_some_iff.mp hstep
    obtain ⟨hinv, hheld⟩ := hloop.internal h.loop h.held_le hturn hs
    obtain ⟨i, halone, hturn⟩ := h.turn
    exact ⟨hinv, h.own, ⟨i, halone, hheld.trans hturn⟩, h.matched⟩

/-- In a run in turn, each client that receives gets the reply to its own messages. -/
theorem matched_of_inTurn {start : σ → Prop} (hloop : loop.Regular size inv quiet held answers)
    (hsize : 0 < size) (hstart : ∀ s, start s → inv s ∧ held s = [])
    {h : History (Network σ μ) (Event ρ ι μ) Unit} {x : Network σ μ}
    (hrun : Run (networkStep loop size) (Started start) h x)
    (hturn : Always (fun _ y => InTurn quiet y.before y.event) h) :
    Always (fun _ y => Matched answers y.after) h := by
  have hboth : Sound size inv held answers x ∧ Always (fun _ y => Matched answers y.after) h := by
    refine hrun.invariant_of (I := fun h x => Sound size inv held answers x ∧
      Always (fun _ y => Matched answers y.after) h) hturn ?_ ?_
    · intro x hx
      obtain ⟨hs, hclients⟩ := hx
      obtain ⟨hinv, hheld⟩ := hstart x.loop hs
      have hsent : ∀ j, x.sent j = [] := fun j => by simp [Network.sent, hclients]
      refine ⟨⟨hinv, by simp [hclients], ⟨0, fun j _ => hsent j, by rw [hheld, hsent]; rfl⟩, ?_⟩,
        trivial⟩
      intro j c letter hc
      simp [hclients] at hc
    · intro past y hpast hy hin
      obtain ⟨hsound, hmatched⟩ := hpast
      obtain ⟨x', hstep, heq⟩ := Option.map_eq_some_iff.mp hy
      obtain ⟨hafter, -⟩ := Prod.mk.inj heq
      have hnext := hsound.step hloop hsize hin (hafter ▸ hstep)
      exact ⟨hnext, hnext.matched, hmatched⟩
  exact hboth.2

end

/-- A run from the start without clients, given by its events and a property of its history. -/
theorem exists_run (loop : Loop σ ρ ι μ) (size : ℕ) {start : σ → Prop} {s : σ} (hs : start s)
    (es : List (Event ρ ι μ)) (p : History (Network σ μ) (Event ρ ι μ) Unit → Prop)
    (hes : ∃ r ∈ replay (networkStep loop size) [] ⟨s, []⟩ es, p r.1) :
    ∃ h x, Run (networkStep loop size) (Started start) h x ∧ p h :=
  exists_run_of_replay es p ⟨hs, rfl⟩ hes

end

end SharedChannel
