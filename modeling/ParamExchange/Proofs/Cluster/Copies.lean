/-
Local copies and parameter servers. A request over a network that succeeds leaves on the servers of its
route what it put into the buffer, one slice after another, and leaves all other names alone; so does a
request to a store at hand. So both keep the layers of a worker that is alone with them, the network as long
as no request fails, and the copies of the worker are what is held, bit for bit.
-/
import ParamExchange.Proofs.Cluster.Lengths
import ParamExchange.Proofs.Key.Partners
import ParamExchange.Proofs.Worker.Coherence

namespace ParamExchange

open Wire Network

/-! ## Stores at hand -/

variable {α : Type} [Scalar α]

namespace Store

variable {store : Store α} {name : String}

/-- What is held under a name is not changed by a pull. -/
theorem value?_pull_held {values : List α} (h : store.value? name = some values) (buffer : List α) :
    (store.pull name buffer).state.value? name = some values := by
  obtain ⟨entry, hentry, -⟩ := Option.map_eq_some_iff.1 h
  rw [pull_touched (touch_held hentry _)]
  exact h

/-- A push leaves other names alone. -/
theorem value?_push_of_ne (store : Store α) {other : String} (h : other ≠ name) (gradient buffer : List α) :
    (store.push name gradient buffer).state.value? other = store.value? other :=
  congrArg (Option.map Entry.values) ((request_frame store name (some gradient) buffer).2 other h)

end Store

/-- Layers with parsed keys of their own, none of which is that of an accumulator. -/
structure AreTrained (layers : List Layer) : Prop where
  keys : (layers.map (·.key)).Nodup
  parsed : ∀ layer ∈ layers, Key.ofName layer.key.name = .ok layer.key
  trained : ∀ layer ∈ layers, layer.key.role.isMomentum = false

namespace AreTrained

variable {layers : List Layer} {layer other : Layer}

/-- No layer has the name of the accumulator of a layer. -/
theorem name_ne_partner (h : AreTrained layers) (hlayer : layer ∈ layers) (hother : other ∈ layers) :
    other.key.name ≠ layer.key.partner.name :=
  Key.name_ne_partner_name (h.trained layer hlayer) (h.trained other hother) (h.parsed other hother)

/-- Layers are told apart by their names. -/
theorem eq_of_name_eq (h : AreTrained layers) (hlayer : layer ∈ layers) (hother : other ∈ layers)
    (heq : other.key.name = layer.key.name) : other = layer := by
  have hparsed := h.parsed other hother
  rw [heq, h.parsed layer hlayer] at hparsed
  exact List.inj_on_of_nodup_map h.keys hother hlayer (Except.ok.inj hparsed).symm

end AreTrained

namespace Store

variable {store : Store α} {layers : List Layer} {layer : Layer}

/-- What the store holds for the layers has their sizes. -/
def IsSized (layers : List Layer) (store : Store α) : Prop :=
  ∀ layer ∈ layers, ∀ values ∈ store.value? layer.key.name, values.length = Shape.size layer.shape

/-- A request for a layer to a store at hand succeeds, and its answer is what the store holds then. -/
theorem IsSound.fills (h : store.IsSound) (hlayers : AreTrained layers) (hsized : store.IsSized layers)
    (hlayer : layer ∈ layers) (gradient? : Option (List α))
    (hgradient : ∀ gradient ∈ gradient?, gradient.length = Shape.size layer.shape) {P : Layer → Prop}
    (hP : ∀ other, P other → other ∈ layers ∧ (other.key ≠ layer.key ∨ gradient? = none)) :
    Fills (fun s => s.IsSound ∧ s.IsSized layers) (fun layer s => s.value? layer.key.name) P layer store
      ((store.request layer.key.name gradient? layer.buffer).mapError .store) := by
  obtain ⟨entry, after, hlen, hserves⟩ := h.serves (hlayers.parsed layer hlayer) hgradient (hsized layer hlayer)
  have hrequest := hserves.request layer.buffer List.length_replicate
  have hsound := h.request layer.key.name gradient? layer.buffer
  have hframe : ∀ name, name ≠ layer.key.name → after.value? name = store.value? name := fun name hne => by
    rw [Store.value?, Store.value?, hserves.sets.get?, if_neg hne]
  have hvalue : after.value? layer.key.name = some entry.values := hserves.sets.value?
  have hpulled : gradient? = none → ∀ values, store.value? layer.key.name = some values →
      after.value? layer.key.name = some values := by
    rintro rfl values hheld
    have hpull := value?_pull_held hheld (layer.buffer : List α)
    rwa [show store.pull layer.key.name layer.buffer = _ from hrequest] at hpull
  rw [hrequest] at hsound ⊢
  refine ⟨rfl, ⟨hsound, fun other hother values hvalues => ?_⟩, hvalue, fun other hother values hheld => ?_⟩
  · change values ∈ after.value? other.key.name at hvalues
    by_cases hname : other.key.name = layer.key.name
    · obtain rfl := hlayers.eq_of_name_eq hlayer hother hname
      rw [hvalue] at hvalues
      cases hvalues
      exact hlen
    · rw [hframe _ hname] at hvalues
      exact hsized other hother values hvalues
  · change after.value? other.key.name = some values
    obtain ⟨hmem, hcases⟩ := hP other hother
    by_cases hname : other.key.name = layer.key.name
    · -- only a pull keeps what is held for the layer itself
      obtain rfl := hlayers.eq_of_name_eq hlayer hmem hname
      exact hpulled (hcases.resolve_left fun hne => hne rfl) values hheld
    · rwa [hframe _ hname]

end Store

/-- A store at hand keeps the layers of a worker that is alone with it. -/
def Keeper.ofStore {layers : List Layer} (hlayers : AreTrained layers) :
    Keeper (Transport.ofStore : Transport (Store α) α) layers where
  usable store := store.IsSound ∧ store.IsSized layers
  held layer store := store.value? layer.key.name
  fragile := False
  pull layer hlayer store husable := .inr <| husable.1.fills hlayers husable.2 hlayer none nofun
    fun other hother => ⟨hother, .inr rfl⟩
  push layer hlayer _ store husable _ gradient hgradient := .inr <|
    husable.1.fills hlayers husable.2 hlayer (some gradient)
      (fun other hother => Option.some.inj hother ▸ hgradient) fun other hother => ⟨hother.1, .inl hother.2⟩
  partner layer hlayer _ store husable _ gradient _ := .inr <| by
    have hkept : ∀ other ∈ layers,
        (store.push layer.key.partner.name gradient layer.buffer).state.value? other.key.name =
          store.value? other.key.name := fun other hother =>
      Store.value?_push_of_ne store (hlayers.name_ne_partner hlayer hother) gradient layer.buffer
    refine ⟨⟨husable.1.request layer.key.partner.name (some gradient) layer.buffer, ?_⟩, ?_⟩
    · intro other hother values hvalues
      exact husable.2 other hother values ((hkept other hother).symm.trans hvalues)
    · intro other hother values hheld
      exact (hkept other hother).trans hheld

/-! ## Answers that are held -/

/-- A call that is answered has answers that fit. -/
theorem Answers.answerFits {server after : Server} {call : Call} {span : Span} {values : List Single}
    (h : Answers server (call.message span) [.params call.key.name values] after) (hlen : values.length = span.length)
    (hfit : (call.message span).body.length ≤ frameLimit) : AnswerFits call.key.name span.length := by
  obtain ⟨key, gradient?, buffer⟩ := call
  cases gradient? with
  | none =>
    have hpull : Answers server (.pull key.name (UInt64.ofNat span.length)) [.params key.name values] after := h
    cases hpull with
    | pull hfits _ _ _ hvalues => rwa [← hvalues, hlen] at hfits
  | some gradient =>
    have hpush : Answers server (.push key.name (span.slice gradient)) [.params key.name values] after := h
    cases hpush with
    | push _ _ _ hvalues =>
      intro others hothers
      change (Message.push key.name (span.slice gradient)).body.length ≤ frameLimit at hfit
      rw [length_body_push, length_body_params, ← hvalues, hlen] at hfit
      rwa [length_body_params, hothers]

/-- What a server holds is not changed by a pull. -/
theorem Answers.pull_held {server after : Server} {call : Call} {span : Span} {replies : List Message}
    (h : Answers server (call.message span) replies after) (hpull : call.gradient? = none) {values : List Single}
    (hheld : server.store.value? call.key.name = some values) : after.store.value? call.key.name = some values := by
  unfold Call.message at h
  rw [hpull] at h
  cases h with
  | pull _ _ hstate _ _ =>
    subst hstate
    exact Store.value?_pull_held hheld _

/-! ## Networks -/

namespace Cluster

/-- The first `n` services attend to the seat with nothing unread, and their stores are sound. -/
def Waits (c : Cluster) (seat n : Nat) : Prop :=
  ∃ servers, c.Attends seat n servers (fun _ => []) ∧ ∀ i < n, (servers i).store.IsSound

/-- What the servers on a route hold of a parameter, one slice after another. -/
def slices? (c : Cluster) (spread : Spread) (key : Key) (length : Nat) : Option (List Single) :=
  ((spread.route key length).mapM fun span => c.value? span.server key.name).map List.flatten

/-- What a call that succeeded has done. -/
structure Did (c : Cluster) (seat : Nat) (spread : Spread) (call : Call)
    (filled : Filled TransportError Single Cluster) : Prop where
  waits : filled.state.Waits seat spread.servers
  answer : filled.state.slices? spread call.key call.buffer.length = some filled.buffer
  others : ∀ i < spread.servers, ∀ name, name ≠ call.key.name → filled.state.value? i name = c.value? i name
  pulled : call.gradient? = none → ∀ i < spread.servers, ∀ values, c.value? i call.key.name = some values →
    filled.state.value? i call.key.name = some values
  sent : ∀ span ∈ spread.route call.key call.buffer.length, (call.message span).body.length ≤ frameLimit

/-- The buffer of a call that succeeds holds the answers, one after another, and its messages were within the
limit of frames. -/
theorem Attends.buffer_of_call_ok {c : Cluster} {seat : Nat} {spread : Spread} {servers servers' : Nat → Server}
    {call : Call} {values : Span → List Single} (h : c.Attends seat spread.servers servers fun _ => [])
    (hn : 0 < spread.servers) (hm : 0 < spread.minSlice) (hwords : call.IsWritable spread)
    (hok : ((Network.transport (links seat) spread).call call c).result = .ok ())
    (hlen : ∀ span ∈ spread.route call.key call.buffer.length, (values span).length = span.length)
    (hanswers : ∀ span ∈ spread.route call.key call.buffer.length,
      Answers (servers span.server) (call.message span) [.params call.key.name (values span)] (servers' span.server)) :
    ((Network.transport (links seat) spread).call call c).buffer =
        ((spread.route call.key call.buffer.length).map values).flatten ∧
      ∀ span ∈ spread.route call.key call.buffer.length, (call.message span).body.length ≤ frameLimit := by
  have hgradient := length_gradient_of_call_ok hok
  rw [call_transport _ _ hgradient] at hok ⊢
  have hdistinct := Spread.nodup_servers_route spread call.key call.buffer.length
  have hlt : ∀ span ∈ spread.route call.key call.buffer.length, span.server < spread.servers :=
    fun span hspan => Spread.server_lt_of_mem_route hspan
  have hsent := h.fits_of_request_ok hdistinct hlt hwords hok
  refine ⟨?_, hsent⟩
  obtain ⟨next, _, hrequest, -⟩ := h.request (Spread.route_ne_nil hn hm call.key call.buffer.length) hdistinct hlt hsent
    hanswers hlen (fun span hspan => (hanswers span hspan).answerFits (hlen span hspan) (hsent span hspan)) call.buffer
  have htiles := Spread.tiles_route hn call.key call.buffer.length
  rw [hrequest, htiles.foldl_overwrite_parts hlen (le_refl _), List.take_zero, List.nil_append, List.drop_length,
    List.append_nil]

theorem Waits.did {c : Cluster} {seat : Nat} {spread : Spread} {call : Call} (h : c.Waits seat spread.servers)
    (hn : 0 < spread.servers) (hm : 0 < spread.minSlice) (hwords : call.IsWritable spread)
    (hok : ((Network.transport (links seat) spread).call call c).result = .ok ()) :
    c.Did seat spread call ((Network.transport (links seat) spread).call call c) := by
  obtain ⟨servers, hattends, hsound⟩ := h
  have hlt : ∀ span ∈ spread.route call.key call.buffer.length, span.server < spread.servers :=
    fun span hspan => Spread.server_lt_of_mem_route hspan
  obtain ⟨servers', hnext, hanswers, hothers⟩ := hattends.call_ok hwords hok
  have : Inhabited Server := ⟨servers 0⟩
  choose! values hlen hanswers using hanswers
  obtain ⟨hbuffer, hsent⟩ := hattends.buffer_of_call_ok hn hm hwords hok hlen hanswers
  have hheld : ∀ span ∈ spread.route call.key call.buffer.length, _ := fun span hspan =>
    (hanswers span hspan).held (hlen span hspan) (hsound _ (hlt span hspan))
  -- a server is on the route of the call or is left alone
  have hserver : ∀ i, i < spread.servers → (servers' i).store.IsSound ∧
      (∀ name, name ≠ call.key.name → (servers' i).store.value? name = (servers i).store.value? name) ∧
      (call.gradient? = none → ∀ old, (servers i).store.value? call.key.name = some old →
        (servers' i).store.value? call.key.name = some old) := by
    intro i hi
    by_cases hmem : i ∈ (spread.route call.key call.buffer.length).map (·.server)
    · obtain ⟨span, hspan, rfl⟩ := List.mem_map.1 hmem
      obtain ⟨-, -, hafter, hothers⟩ := hheld span hspan
      exact ⟨hafter, hothers, fun hpull old hold => (hanswers span hspan).pull_held hpull hold⟩
    · rw [hothers i hmem]
      exact ⟨hsound i hi, fun _ _ => rfl, fun _ _ hold => hold⟩
  have hall : ∀ span ∈ spread.route call.key call.buffer.length,
      ((Network.transport (links seat) spread).call call c).state.value? span.server call.key.name =
        pure (values span) := fun span hspan => by
    rw [hnext.value? (hlt span hspan)]
    exact (hheld span hspan).2.1
  constructor
  · exact ⟨servers', hnext, fun i hi => (hserver i hi).1⟩
  · rw [slices?, mapM_eq_pure hall, hbuffer]
    rfl
  · intro i hi name hne
    rw [hnext.value? hi, hattends.value? hi, (hserver i hi).2.1 name hne]
  · intro hpull i hi old hold
    rw [hattends.value? hi] at hold
    rw [hnext.value? hi]
    exact (hserver i hi).2.2 hpull old hold
  · exact hsent

end Cluster

/-! ## Bodies -/

theorem length_body_pull (key : String) (length : UInt64) :
    (Message.pull key length).body.length =
      16 + ((Text.Utf8.encode key).length + padding (Text.Utf8.encode key).length) := by
  have hpad : padding (8 + 12 + (4 + (Text.Utf8.encode key).length)) = padding (Text.Utf8.encode key).length := by
    rw [← Nat.add_assoc, padding_add (by decide)]
  simp only [Message.body, Message.encode, Message.head, Message.tail?, Option.getD_none, List.length_append,
    List.length_nil, length_big, length_writeKey, lengthWidth, hpad]
  omega

namespace Call

/-- The body of a message has room for the name. -/
theorem length_name_le (call : Call) (span : Span) :
    (Text.Utf8.encode call.key.name).length ≤ (call.message span).body.length := by
  unfold message
  split
  · rw [pullMessage, length_body_pull]
    omega
  · rw [pushMessage, length_body_push, length_body_params]
    omega

/-- The messages of a call have bodies whose lengths are words, if its name and its gradient are not longer
than anything that there is room for. -/
theorem isWritable_of_le {call : Call}
    (h : (Text.Utf8.encode call.key.name).length + 4 * (call.gradient?.getD []).length ≤ 2 * roomLimit - 32)
    (spread : Spread) : call.IsWritable spread := by
  have hlimit : 2 * roomLimit - 32 + 19 < 256 ^ lengthWidth := by decide
  have hpadding : padding (Text.Utf8.encode call.key.name).length ≤ 3 := by
    unfold padding
    omega
  intro span _
  unfold message
  split
  · rw [pullMessage, length_body_pull]
    omega
  · rename_i gradient hgradient
    have hslice : (span.slice gradient).length ≤ gradient.length := by simp [Span.slice]
    rw [hgradient, Option.getD_some] at h
    rw [pushMessage, length_body_push, length_body_params]
    omega

end Call

/-! ## Layers on a network -/

theorem mapM_eq_some_of_imp {β γ : Type} {f g : β → Option γ} {list : List β} {ys : List γ}
    (h : ∀ x ∈ list, ∀ y, f x = some y → g x = some y) (hf : list.mapM f = some ys) : list.mapM g = some ys := by
  induction list generalizing ys with
  | nil => exact hf
  | cons x list ih =>
    obtain ⟨hfirst, hlist⟩ := List.forall_mem_cons.1 h
    rw [List.mapM_cons] at hf ⊢
    obtain ⟨y, hy, hrest⟩ := Option.bind_eq_some_iff.1 hf
    obtain ⟨others, hothers, hcons⟩ := Option.bind_eq_some_iff.1 hrest
    rw [hfirst y hy, ih hlist hothers]
    exact hcons

namespace Cluster

variable {c c' : Cluster} {seat : Nat} {spread : Spread} {layers : List Layer} {layer : Layer}

/-- What the servers still hold of a parameter they still hold one slice after another. -/
theorem slices?_of_value? {key : Key} {length : Nat} {values : List Single}
    (h : ∀ i < spread.servers, ∀ part, c.value? i key.name = some part → c'.value? i key.name = some part)
    (hvalues : c.slices? spread key length = some values) : c'.slices? spread key length = some values := by
  obtain ⟨parts, hparts, hflatten⟩ := Option.map_eq_some_iff.1 hvalues
  refine Option.map_eq_some_iff.2 ⟨parts, mapM_eq_some_of_imp (fun span hspan part => ?_) hparts, hflatten⟩
  exact h span.server (Spread.server_lt_of_mem_route hspan) part

/-- The services wait, and the name of each layer that is held fits in a frame. -/
structure IsKept (c : Cluster) (seat : Nat) (spread : Spread) (layers : List Layer) : Prop where
  waits : c.Waits seat spread.servers
  names : ∀ layer ∈ layers, (c.slices? spread layer.key (Shape.size layer.shape)).isSome = true →
    (Text.Utf8.encode layer.key.name).length ≤ frameLimit

variable {call : Call} {filled : Filled TransportError Single Cluster}

/-- What is held for layers with other names is not touched by a call. -/
theorem Did.slices? (h : c.Did seat spread call filled) (hne : layer.key.name ≠ call.key.name) (length : Nat) :
    filled.state.slices? spread layer.key length = c.slices? spread layer.key length := by
  refine Option.ext fun values => ?_
  constructor <;> apply slices?_of_value? <;> intro i hi part hpart
  · rwa [← h.others i hi _ hne]
  · rwa [h.others i hi _ hne]

/-- A call for a layer fails, or it keeps the layers and fills its buffer with what is held. -/
theorem IsKept.calls (hkept : c.IsKept seat spread layers) (hlayers : AreTrained layers) (hn : 0 < spread.servers)
    (hm : 0 < spread.minSlice) (hlayer : layer ∈ layers) (call : Call) (hkey : call.key = layer.key)
    (hbuffer : call.buffer.length = Shape.size layer.shape) (hwords : call.IsWritable spread) {P : Layer → Prop}
    (hP : ∀ other, P other → other ∈ layers ∧ (other.key ≠ layer.key ∨ call.gradient? = none)) :
    Breaks True ((Network.transport (links seat) spread).call call c) ∨
      Fills (IsKept · seat spread layers) (fun layer c => c.slices? spread layer.key (Shape.size layer.shape)) P layer c
        ((Network.transport (links seat) spread).call call c) := by
  rcases hok : ((Network.transport (links seat) spread).call call c).result with e | ⟨⟩
  · exact .inl ⟨trivial, e, hok⟩
  have h := hkept.waits.did hn hm hwords hok
  have hne : ∀ other ∈ layers, other ≠ layer → other.key.name ≠ call.key.name := fun other hother hne heq =>
    hne (hlayers.eq_of_name_eq hlayer hother (hkey ▸ heq))
  right
  constructor
  · exact hok
  · refine ⟨h.waits, fun other hother hsome => ?_⟩
    by_cases hsame : other = layer
    · obtain ⟨span, rest, hroute⟩ := List.exists_cons_of_ne_nil (Spread.route_ne_nil hn hm call.key call.buffer.length)
      rw [hsame, ← hkey]
      exact (call.length_name_le span).trans (h.sent span (hroute ▸ List.mem_cons_self ..))
    · rw [h.slices? (hne other hother hsame)] at hsome
      exact hkept.names other hother hsome
  · rw [← hkey, ← hbuffer]
    exact h.answer
  · intro other hother values hheld
    obtain ⟨hmem, hcases⟩ := hP other hother
    by_cases hsame : other = layer
    · subst hsame
      have hpulled := h.pulled (hcases.resolve_left fun hne => hne rfl)
      rw [hkey] at hpulled
      exact slices?_of_value? hpulled hheld
    · exact (h.slices? (hne other hmem hsame) _).trans hheld

/-- A call for the accumulator of a layer fails, or it keeps the layers and all that is held for them. -/
theorem IsKept.calls_partner (hkept : c.IsKept seat spread layers) (hlayers : AreTrained layers)
    (hn : 0 < spread.servers) (hm : 0 < spread.minSlice) (hlayer : layer ∈ layers) (call : Call)
    (hkey : call.key = layer.key.partner) (hwords : call.IsWritable spread) :
    Breaks True ((Network.transport (links seat) spread).call call c) ∨
      ((Network.transport (links seat) spread).call call c).state.IsKept seat spread layers ∧
        Kept (fun layer c => c.slices? spread layer.key (Shape.size layer.shape)) (· ∈ layers) c
          ((Network.transport (links seat) spread).call call c).state := by
  rcases hok : ((Network.transport (links seat) spread).call call c).result with e | ⟨⟩
  · exact .inl ⟨trivial, e, hok⟩
  have h := hkept.waits.did hn hm hwords hok
  have hne : ∀ other ∈ layers, other.key.name ≠ call.key.name := fun other hother =>
    hkey ▸ hlayers.name_ne_partner hlayer hother
  right
  refine ⟨⟨h.waits, fun other hother hsome => ?_⟩, fun other hother values hheld => ?_⟩
  · rw [h.slices? (hne other hother)] at hsome
    exact hkept.names other hother hsome
  · exact (h.slices? (hne other hother) _).trans hheld

end Cluster

/-- A gradient for a tensor that there is room for can be sent under a short name. -/
theorem Call.isWritable_of_room {shape : List Nat} (hroom : Shape.isAddressable shape = true) {key : Key}
    (hname : (Text.Utf8.encode key.name).length ≤ frameLimit) {gradient : List Single}
    (hgradient : gradient.length = Shape.size shape) (buffer : List Single) (spread : Spread) :
    (⟨key, some gradient, buffer⟩ : Call).IsWritable spread := by
  have hlimit : frameLimit + roomLimit ≤ 2 * roomLimit - 32 := by decide
  have hsize : Shape.size shape * singleWidth ≤ roomLimit := by
    unfold Shape.isAddressable hasRoom at hroom
    simp only [Bool.and_eq_true, decide_eq_true_eq] at hroom
    exact hroom.2
  apply Call.isWritable_of_le
  show (Text.Utf8.encode key.name).length + 4 * gradient.length ≤ _
  rw [hgradient]
  unfold singleWidth at hsize
  omega

/-- Servers on a network keep the layers of a worker that is alone with them, as long as no request fails. -/
def Keeper.ofNetwork {layers : List Layer} (hlayers : AreTrained layers)
    (hnames : ∀ layer ∈ layers, (Text.Utf8.encode layer.key.name).length ≤ roomLimit) (seat : Nat) {spread : Spread}
    (hn : 0 < spread.servers) (hm : 0 < spread.minSlice) :
    Keeper (Network.transport (Cluster.links seat) spread) layers where
  usable c := c.IsKept seat spread layers
  held layer c := c.slices? spread layer.key (Shape.size layer.shape)
  fragile := True
  pull layer hlayer c hkept := by
    have hwords : (⟨layer.key, none, layer.buffer⟩ : Call).IsWritable spread := by
      apply Call.isWritable_of_le
      exact (hnames layer hlayer).trans (by decide)
    exact hkept.calls hlayers hn hm hlayer ⟨layer.key, none, layer.buffer⟩ rfl List.length_replicate hwords
      fun other hother => ⟨hother, .inr rfl⟩
  push layer hlayer hroom c hkept hheld gradient hgradient :=
    hkept.calls hlayers hn hm hlayer ⟨layer.key, some gradient, layer.buffer⟩ rfl List.length_replicate
      (Call.isWritable_of_room hroom (hkept.names layer hlayer hheld) hgradient _ _)
      fun other hother => ⟨hother.1, .inl hother.2⟩
  partner layer hlayer hroom c hkept hheld gradient hgradient := by
    have hwords : (⟨layer.key.partner, some gradient, layer.buffer⟩ : Call).IsWritable spread :=
      Call.isWritable_of_room hroom (layer.key.length_encode_partner_le.trans (by decide)) hgradient _ _
    exact hkept.calls_partner hlayers hn hm hlayer ⟨layer.key.partner, some gradient, layer.buffer⟩ rfl hwords

end ParamExchange
