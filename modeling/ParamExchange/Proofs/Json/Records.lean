/-
Values with parts are read back from their written form: an object is read as a record if each of
its members is, one after another, and a variant is read by its name. Identities are such records
and control messages such variants.
-/
import Mathlib.Tactic
import ParamExchange.Proofs.Json.Values
import ParamExchange.Wire.Codec

namespace ParamExchange.Json

open Text

/-! ## Members -/

theorem hasMember_first (s : List UInt8) : hasMember true (ascii '"' :: s) = .ok (true, s) := by
  have hs : isSpace (ascii '"') = false := by decide
  have hb : (ascii '"' == ascii '\x7d') = false := by decide
  unfold hasMember
  rw [bind_ok (upcoming_cons hs _)]
  simp only [hb, Bool.false_eq_true, if_false, if_true]
  rw [bind_ok (symbol_ascii hs _)]
  rfl

theorem hasMember_next (s : List UInt8) :
    hasMember false (ascii ',' :: ascii '"' :: s) = .ok (true, s) := by
  have hs : isSpace (ascii ',') = false := by decide
  have hq : isSpace (ascii '"') = false := by decide
  have hb : (ascii ',' == ascii '\x7d') = false := by decide
  unfold hasMember
  rw [bind_ok (upcoming_cons hs _)]
  simp only [hb, Bool.false_eq_true, if_false, beq_self_eq_true, if_true]
  rw [bind_ok (next_cons _ _), bind_ok (symbol_ascii hq _)]
  rfl

theorem hasMember_end (isFirst : Bool) (s : List UInt8) :
    hasMember isFirst (ascii '\x7d' :: s) = .ok (false, ascii '\x7d' :: s) := by
  have hs : isSpace (ascii '\x7d') = false := by decide
  unfold hasMember
  rw [bind_ok (upcoming_cons hs _)]
  simp only [beq_self_eq_true, if_true]
  rfl

/-- What stands after the value of a member: the other members, or the end of the object. -/
def afterMember (ms : List (String × List UInt8)) (s : List UInt8) : List UInt8 :=
  match ms with
  | [] => ascii '\x7d' :: s
  | m :: ms => ascii ',' :: (writeMembers (m :: ms) ++ ascii '\x7d' :: s)

theorem writeMembers_cons (m : String × List UInt8) (ms : List (String × List UInt8)) (s : List UInt8) :
    writeMembers (m :: ms) ++ ascii '\x7d' :: s =
      writeString m.1 ++ ascii ':' :: (m.2 ++ afterMember ms s) := by
  cases ms <;> simp [writeMembers, afterMember]

/-- Some written members lead from one draft to another: each is a field that is not set yet, and its
value is read back. -/
inductive Gathers {δ : Type} (fields : List (Field δ)) : δ → List (String × List UInt8) → δ → Prop
  | nil {d : δ} : Gathers fields d [] d
  | cons {d d' d'' : δ} {field : Field δ} {name : String} {value : List UInt8}
      {ms : List (String × List UInt8)} :
      fields.find? (fun f => f.name == name) = some field → field.isSet d = false →
      (∀ ms s, field.read d (value ++ afterMember ms s) = .ok (d', afterMember ms s)) →
      Gathers fields d' ms d'' → Gathers fields d ((name, value) :: ms) d''

section Members

variable {δ : Type} {fields : List (Field δ)}

theorem Gathers.append {d d' d'' : δ} {ms ns : List (String × List UInt8)} (h : Gathers fields d ms d')
    (h' : Gathers fields d' ns d'') : Gathers fields d (ms ++ ns) d'' := by
  induction h with
  | nil => exact h'
  | cons hfind hset hread _ ih => exact .cons hfind hset hread (ih h')

/-- The reader of an object reads the value of a written member whose name is a field that is not set yet. -/
theorem members_member {d : δ} {field : Field δ} {name : String} (lead : List UInt8) (isFirst : Bool)
    (hlead : ∀ s, hasMember isFirst (lead ++ ascii '"' :: s) = .ok (true, s))
    (hfind : fields.find? (fun f => f.name == name) = some field) (hset : field.isSet d = false)
    (fuel : Nat) (s : List UInt8) :
    members fields isFirst d (fuel + 1) (lead ++ (writeString name ++ ascii ':' :: s)) =
      (field.read d >>= fun d' => members fields false d' fuel) s := by
  have hc : isSpace (ascii ':') = false := by decide
  rw [members, writeString_append, bind_ok (hlead _)]
  simp only [if_true]
  rw [bind_ok (stringBody_write _ _)]
  simp only [hfind, hset, Bool.false_eq_true, if_false]
  rw [bind_ok (symbol_ascii hc _)]

/-- The reader of an object takes one written member. -/
theorem members_step {d d' : δ} {field : Field δ} {name : String} {value : List UInt8}
    (lead : List UInt8) (isFirst : Bool) (hlead : ∀ s, hasMember isFirst (lead ++ ascii '"' :: s) = .ok (true, s))
    (hfind : fields.find? (fun f => f.name == name) = some field) (hset : field.isSet d = false)
    (hread : ∀ ms s, field.read d (value ++ afterMember ms s) = .ok (d', afterMember ms s))
    (fuel : Nat) (ms : List (String × List UInt8)) (s : List UInt8) :
    members fields isFirst d (fuel + 1)
        (lead ++ (writeString name ++ ascii ':' :: (value ++ afterMember ms s))) =
      members fields false d' fuel (afterMember ms s) := by
  rw [members_member lead isFirst hlead hfind hset, bind_ok (hread ms s)]

theorem members_end (isFirst : Bool) (d : δ) (fuel : Nat) (s : List UInt8) :
    members fields isFirst d (fuel + 1) (ascii '\x7d' :: s) = .ok (d, s) := by
  rw [members, bind_ok (hasMember_end isFirst s)]
  rfl

/-- The other members of an object are read up to its end. -/
theorem members_after {d d' : δ} {ms : List (String × List UInt8)} (h : Gathers fields d ms d') :
    ∀ (fuel : Nat) (s : List UInt8), ms.length < fuel →
      members fields false d fuel (afterMember ms s) = .ok (d', s) := by
  induction h with
  | nil =>
    intro fuel s hf
    obtain ⟨fuel, rfl⟩ : ∃ k, fuel = k + 1 := ⟨fuel - 1, by omega⟩
    exact members_end false _ fuel s
  | @cons d d' d'' field name value ms hfind hset hread _ ih =>
    intro fuel s hf
    obtain ⟨fuel, rfl⟩ : ∃ k, fuel = k + 1 := ⟨fuel - 1, by omega⟩
    rw [List.length_cons] at hf
    have hstep := members_step [ascii ','] false hasMember_next hfind hset hread
    rw [afterMember, writeMembers_cons]
    rw [show ∀ l : List UInt8, ascii ',' :: l = [ascii ','] ++ l from fun l => rfl, hstep]
    exact ih fuel s (by omega)

/-- The members of an object that has some are read from the first one on. -/
theorem members_write {d d' : δ} {m : String × List UInt8} {ms : List (String × List UInt8)}
    (h : Gathers fields d (m :: ms) d') (fuel : Nat) (s : List UInt8) (hf : ms.length + 1 < fuel) :
    members fields true d fuel (writeMembers (m :: ms) ++ ascii '\x7d' :: s) = .ok (d', s) := by
  cases h with
  | cons hfind hset hread hrest =>
    obtain ⟨fuel, rfl⟩ : ∃ k, fuel = k + 1 := ⟨fuel - 1, by omega⟩
    have hstep := members_step [] true hasMember_first hfind hset hread fuel ms s
    rw [writeMembers_cons]
    rw [List.nil_append] at hstep
    rw [hstep]
    exact members_after hrest fuel s (by omega)

/-- The members of an object are read up to one whose value is refused. -/
theorem members_after_fault {d d' : δ} {ms : List (String × List UInt8)} (h : Gathers fields d ms d')
    {field : Field δ} {name : String} {value : List UInt8} {fault : Fault}
    (hfind : fields.find? (fun f => f.name == name) = some field) (hset : field.isSet d' = false)
    (hread : ∀ ms s, field.read d' (value ++ afterMember ms s) = .error fault)
    (rest : List (String × List UInt8)) (s : List UInt8) : ∀ fuel : Nat, ms.length < fuel →
      members fields false d fuel (afterMember (ms ++ (name, value) :: rest) s) = .error fault := by
  induction h with
  | nil =>
    intro fuel hf
    obtain ⟨fuel, rfl⟩ : ∃ k, fuel = k + 1 := ⟨fuel - 1, by omega⟩
    have hmember := members_member [ascii ','] false hasMember_next hfind hset fuel (value ++ afterMember rest s)
    rw [List.nil_append, afterMember, writeMembers_cons]
    exact hmember.trans (bind_error (hread rest s))
  | @cons d d' d'' field' name' value' ms hfind' hset' hread' _ ih =>
    intro fuel hf
    obtain ⟨fuel, rfl⟩ : ∃ k, fuel = k + 1 := ⟨fuel - 1, by omega⟩
    rw [List.length_cons] at hf
    have hstep := members_step [ascii ','] false hasMember_next hfind' hset' hread' fuel
      (ms ++ (name, value) :: rest) s
    rw [List.cons_append, afterMember, writeMembers_cons]
    exact hstep.trans (ih hset hread fuel (by omega))

/-- The members of an object are read from the first one on, up to one whose value is refused. -/
theorem members_fault {d d' : δ} {m : String × List UInt8} {ms : List (String × List UInt8)}
    (h : Gathers fields d (m :: ms) d') {field : Field δ} {name : String} {value : List UInt8} {fault : Fault}
    (hfind : fields.find? (fun f => f.name == name) = some field) (hset : field.isSet d' = false)
    (hread : ∀ ms s, field.read d' (value ++ afterMember ms s) = .error fault)
    (rest : List (String × List UInt8)) (fuel : Nat) (s : List UInt8) (hf : ms.length + 1 < fuel) :
    members fields true d fuel (writeMembers (m :: (ms ++ (name, value) :: rest)) ++ ascii '\x7d' :: s) =
      .error fault := by
  cases h with
  | cons hfind' hset' hread' hrest =>
    obtain ⟨fuel, rfl⟩ : ∃ k, fuel = k + 1 := ⟨fuel - 1, by omega⟩
    have hstep := members_step [] true hasMember_first hfind' hset' hread' fuel (ms ++ (name, value) :: rest) s
    rw [writeMembers_cons]
    exact hstep.trans (members_after_fault hrest hfind hset hread rest s fuel (by omega))

theorem length_lt_writeMembers (ms : List (String × List UInt8)) : ms.length ≤ (writeMembers ms).length := by
  induction ms with
  | nil => simp
  | cons m ms ih =>
    cases ms with
    | nil => simp [writeMembers, writeString]
    | cons m' ms =>
      rw [writeMembers.eq_3 _ _ (by simp)]
      simp only [List.length_append, List.length_cons, List.length_nil, writeString] at ih ⊢
      omega

/-- A record that is written as an object is made of its members, of which there is fuel for all. -/
theorem record_writeObject {α : Type} (fields : List (Field δ)) (empty : δ) (finish : δ → Option α)
    (ms : List (String × List UInt8)) (s : List UInt8) :
    ∃ fuel, ms.length + 1 < fuel ∧ record fields empty finish (writeObject ms ++ s) =
      (members fields true empty fuel >>= fun draft =>
        match finish draft with
        | some a => pure a
        | none => refuse .malformed) (writeMembers ms ++ ascii '\x7d' :: s) := by
  have hs : isSpace (ascii '\x7b') = false := by decide
  have hb : (ascii '\x7b' == ascii '[') = false := by decide
  have hl := length_lt_writeMembers ms
  have hw : writeObject ms ++ s = ascii '\x7b' :: (writeMembers ms ++ ascii '\x7d' :: s) := by
    simp [writeObject]
  refine ⟨(writeMembers ms ++ ascii '\x7d' :: s).length + 1, ?_, ?_⟩
  · rw [List.length_append, List.length_cons]
    omega
  · rw [hw]
    unfold record
    rw [bind_ok (upcoming_cons hs _)]
    simp only [hb, Bool.false_eq_true, if_false, beq_self_eq_true, if_true]
    exact (bind_ok (next_cons _ _)).trans (bind_ok (show remaining _ = .ok (_, _) from rfl))

/-- A record is made of its draft, whatever the form of the document, and the document is malformed if the draft
makes none. -/
theorem record_of_draft {α : Type} {empty d : δ} {s rest : List UInt8} (h : record fields empty some s = .ok (d, rest))
    (finish : δ → Option α) :
    record fields empty finish s = (finish d).elim (.error .malformed) fun a => .ok (a, rest) := by
  have hmade : (match finish d with
      | some a => pure a
      | none => refuse .malformed : Reader α) rest =
      (finish d).elim (.error .malformed) fun a => .ok (a, rest) := by cases finish d <;> rfl
  unfold record at h ⊢
  obtain ⟨b, t, hb, h⟩ := bind_eq_ok h
  rw [bind_ok hb]
  split
  · rename_i harray
    rw [if_pos harray] at h
    obtain ⟨_, _, hnext, h⟩ := bind_eq_ok h
    obtain ⟨draft, _, hread, h⟩ := bind_eq_ok h
    cases h
    rw [bind_ok hnext, bind_ok hread]
    exact hmade
  · rename_i harray
    rw [if_neg harray] at h
    split
    · rename_i hobject
      rw [if_pos hobject] at h
      obtain ⟨_, _, hnext, h⟩ := bind_eq_ok h
      obtain ⟨_, _, hremaining, h⟩ := bind_eq_ok h
      obtain ⟨draft, _, hread, h⟩ := bind_eq_ok h
      cases h
      rw [bind_ok hnext, bind_ok hremaining, bind_ok hread]
      exact hmade
    · rename_i hobject
      rw [if_neg hobject] at h
      obtain ⟨draft, _, hread, h⟩ := bind_eq_ok h
      cases h
      rw [bind_ok hread]
      exact hmade

/-- The draft of an object is the one that its members lead to. -/
theorem record_gathers {empty d : δ} {m : String × List UInt8} {ms : List (String × List UInt8)}
    (h : Gathers fields empty (m :: ms) d) (s : List UInt8) :
    record fields empty some (writeObject (m :: ms) ++ s) = .ok (d, s) := by
  obtain ⟨fuel, hfuel, hrecord⟩ := record_writeObject fields empty some (m :: ms) s
  rw [List.length_cons] at hfuel
  rw [hrecord, bind_ok (members_write h fuel s (by omega))]
  rfl

/-- An object is refused for the first of its members whose value is refused. -/
theorem record_fault {α : Type} {empty d : δ} {finish : δ → Option α} {m : String × List UInt8}
    {ms : List (String × List UInt8)} (h : Gathers fields empty (m :: ms) d)
    {field : Field δ} {name : String} {value : List UInt8} {fault : Fault}
    (hfind : fields.find? (fun f => f.name == name) = some field) (hset : field.isSet d = false)
    (hread : ∀ ms s, field.read d (value ++ afterMember ms s) = .error fault)
    (rest : List (String × List UInt8)) (s : List UInt8) :
    record fields empty finish (writeObject (m :: (ms ++ (name, value) :: rest)) ++ s) = .error fault := by
  obtain ⟨fuel, hfuel, hrecord⟩ :=
    record_writeObject fields empty finish (m :: (ms ++ (name, value) :: rest)) s
  rw [List.length_cons, List.length_append] at hfuel
  rw [hrecord]
  exact bind_error (members_fault h hfind hset hread rest fuel s (by omega))

end Members

/-! ## Variants -/

theorem caseOf_lookup {α : Type} {cases : List (String × Case α)} {name : String} {c : Case α}
    (h : cases.lookup name = some c) (s : List UInt8) : caseOf cases name s = .ok (c, s) := by
  unfold caseOf
  rw [h]
  rfl

/-- A variant without content is read back from its name. -/
theorem variant_unit {α : Type} {cases : List (String × Case α)} {name : String} {a : α}
    (h : cases.lookup name = some (.unit a)) (s : List UInt8) :
    variant cases (writeString name ++ s) = .ok (a, s) := by
  have hq : isSpace (ascii '"') = false := by decide
  have hstring := string_write name s
  rw [writeString_append] at hstring ⊢
  unfold variant
  rw [bind_ok (upcoming_cons hq _)]
  simp only [beq_self_eq_true, if_true]
  rw [bind_ok hstring, bind_ok (caseOf_lookup h s)]
  rfl

/-- The content of a variant is read after its name, and the object ends after it. -/
theorem variant_writeObject {α : Type} {cases : List (String × Case α)} {name : String} {r : Reader α}
    (h : cases.lookup name = some (.content r)) (value s : List UInt8) :
    variant cases (writeObject [(name, value)] ++ s) =
      (r >>= fun a => do
        symbol '\x7d'
        pure a) (value ++ ascii '\x7d' :: s) := by
  have hs : isSpace (ascii '\x7b') = false := by decide
  have hq : isSpace (ascii '"') = false := by decide
  have hc : isSpace (ascii ':') = false := by decide
  have hb : (ascii '\x7b' == ascii '"') = false := by decide
  have hw : writeObject [(name, value)] ++ s = ascii '\x7b' ::
      (ascii '"' :: ((Utf8.encode name).flatMap writeOctet ++ ascii '"' :: (ascii ':' ::
        (value ++ ascii '\x7d' :: s)))) := by simp [writeObject, writeMembers, writeString]
  rw [hw]
  unfold variant
  rw [bind_ok (upcoming_cons hs _)]
  simp only [hb, Bool.false_eq_true, if_false, beq_self_eq_true, if_true]
  rw [bind_ok (next_cons _ _), bind_ok (symbol_ascii hq _), bind_ok (stringBody_write _ _),
    bind_ok (caseOf_lookup h _), bind_ok (symbol_ascii hc _)]

/-- A variant with content is read back from an object with one member. -/
theorem variant_content {α : Type} {cases : List (String × Case α)} {name : String} {r : Reader α}
    {value : List UInt8} {a : α} {s : List UInt8} (h : cases.lookup name = some (.content r))
    (hr : r (value ++ ascii '\x7d' :: s) = .ok (a, ascii '\x7d' :: s)) :
    variant cases (writeObject [(name, value)] ++ s) = .ok (a, s) := by
  have he : isSpace (ascii '\x7d') = false := by decide
  rw [variant_writeObject h, bind_ok hr, bind_ok (symbol_ascii he _)]
  rfl

theorem parse_of_error {α : Type} {r : Reader α} {s : List UInt8} {fault : Fault}
    (h : r s = .error fault) : parse r s = .error fault := by
  unfold parse
  rw [h]

theorem parse_of_read {α : Type} {r : Reader α} {s : List UInt8} {a : α} (h : r s = .ok (a, [])) :
    parse r s = .ok a := by
  unfold parse
  rw [h]
  rfl

end ParamExchange.Json

namespace ParamExchange.Wire.Control

open Json

/-! ## Identities and control messages -/

theorem delimits_afterMember (ms : List (String × List UInt8)) (s : List UInt8) :
    Delimits (afterMember ms s) := by
  have h1 : continuesNumber (ascii ',') = false := by decide
  have h2 : continuesNumber (ascii '\x7d') = false := by decide
  intro b hb
  cases ms with
  | nil => cases hb; exact h2
  | cons m ms => cases hb; exact h1

theorem word_write_toNat (n : UInt64) {s : List UInt8} (hs : Delimits s) :
    Config.word (writeNat n.toNat ++ s) = .ok (n, s) := by
  rw [word_write n.toNat_lt hs, UInt64.ofNat_toNat]

/-- The number of ranks is positive, as a rank is below it. -/
theorem rankSize_pos (i : Identity) : 0 < i.rankSize.toNat := by
  have h := UInt64.lt_iff_toNat_lt.1 i.rank_lt
  omega

theorem positive_write {n : UInt64} (hn : 0 < n.toNat) {s : List UInt8} (hs : Delimits s) :
    Config.positive (writeNat n.toNat ++ s) = .ok (⟨n.toNat, hn⟩, s) := by
  unfold Config.positive Config.natural
  rw [bind_ok (t := s) (a := n.toNat) (by rw [bind_ok (word_write_toNat n hs)]; rfl)]
  rw [dif_pos hn]
  rfl

theorem positive_zero {s : List UInt8} (hs : Delimits s) :
    Config.positive (writeNat (0 : UInt64).toNat ++ s) = .error .malformed := by
  unfold Config.positive Config.natural
  rw [bind_ok (t := s) (a := 0) (by rw [bind_ok (word_write_toNat 0 hs)]; rfl)]
  rfl

/-- The fields of an identity. -/
def identityFields : List (Json.Field Config.IdentityDraft) :=
  [.of "node_id" Config.IdentityDraft.nodeId (fun d v => { d with nodeId := v }) string false,
   .of "rank" Config.IdentityDraft.rank (fun d v => { d with rank := v }) Config.word false,
   .of "rank_size" Config.IdentityDraft.rankSize (fun d v => { d with rankSize := v })
     Config.positive false]

/-- The first two members of a written identity. -/
theorem gathers_rank (nodeId : String) (rank : UInt64) :
    Gathers identityFields {} [("node_id", writeString nodeId), ("rank", writeNat rank.toNat)]
      ⟨some nodeId, some rank, none⟩ := by
  apply Gathers.cons (δ := Config.IdentityDraft) rfl rfl
  · exact fun ms s => bind_ok (string_write nodeId (afterMember ms s))
  apply Gathers.cons rfl rfl
  · exact fun ms s => bind_ok (word_write_toNat rank (delimits_afterMember ms s))
  exact .nil

/-- The members of a written identity are its three fields. -/
theorem gathers_identity (nodeId : String) (rank : UInt64) {rankSize : UInt64} (h : 0 < rankSize.toNat) :
    Gathers identityFields {}
      [("node_id", writeString nodeId), ("rank", writeNat rank.toNat),
       ("rank_size", writeNat rankSize.toNat)]
      ⟨some nodeId, some rank, some ⟨rankSize.toNat, h⟩⟩ := by
  refine (gathers_rank nodeId rank).append (Gathers.cons rfl rfl ?_ .nil)
  exact fun ms s => bind_ok (positive_write h (delimits_afterMember ms s))

/-- An identity is made of the fields that a document has, in whatever form, if the rank is below the number of
ranks, and the document is malformed otherwise. -/
theorem identity_of_draft {s rest : List UInt8} {nodeId : String} {rank rankSize : UInt64} {h : 0 < rankSize.toNat}
    (hdraft : record identityFields {} some s = .ok (⟨some nodeId, some rank, some ⟨rankSize.toNat, h⟩⟩, rest)) :
    Config.identity s =
      if h : rank < rankSize then .ok (⟨nodeId, rank, rankSize, h⟩, rest) else .error .malformed := by
  refine (record_of_draft hdraft _).trans ?_
  show (Identity.make nodeId rank (UInt64.ofNat rankSize.toNat)).toOption.elim _ _ = _
  rw [UInt64.ofNat_toNat, Identity.make]
  split <;> rfl

/-- An identity is read back with any name of its node and any rank. -/
theorem identity_write (i : Identity) (s : List UInt8) :
    Config.identity (writeIdentity i ++ s) = .ok (i, s) :=
  (identity_of_draft (record_gathers (gathers_identity i.nodeId i.rank (rankSize_pos i)) s)).trans (dif_pos i.rank_lt)

/-- A control message is read back, whatever stands after its document. -/
theorem reader_write (c : Control) (s : List UInt8) : reader (c.write ++ s) = .ok (c, s) := by
  cases c with
  | connect => exact variant_unit rfl s
  | hello i =>
    have hr := identity_write i (ascii '\x7d' :: s)
    exact variant_content rfl (by rw [bind_ok hr]; rfl)
  | disconnect => exact variant_unit rfl s

/-- A control message is read back from its document. -/
theorem parse_write (c : Control) : parse reader c.write = .ok c := by
  have hr := reader_write c []
  rw [List.append_nil] at hr
  exact parse_of_read hr

/-! ## Ranks out of range -/

/-- The members of an identity, its rank below the number of ranks or not. -/
def identityMembers (nodeId : String) (rank rankSize : UInt64) : List (String × List UInt8) :=
  [("node_id", writeString nodeId), ("rank", writeNat rank.toNat), ("rank_size", writeNat rankSize.toNat)]

/-- The document of a hello, its rank below the number of ranks or not. -/
def writeHello (nodeId : String) (rank rankSize : UInt64) : List UInt8 :=
  writeObject [("hello", writeObject (identityMembers nodeId rank rankSize))]

/-- An identity whose rank is not below the number of ranks is refused; no ranks at all already are. -/
theorem identity_outOfRange (nodeId : String) {rank rankSize : UInt64} (h : ¬ rank < rankSize) (s : List UInt8) :
    Config.identity (writeObject (identityMembers nodeId rank rankSize) ++ s) = .error .malformed := by
  by_cases hpos : 0 < rankSize.toNat
  · exact (identity_of_draft (record_gathers (gathers_identity nodeId rank hpos) s)).trans (dif_neg h)
  · obtain rfl : rankSize = 0 := UInt64.toNat_inj.1 (by simpa using hpos)
    refine record_fault (gathers_rank nodeId rank) rfl rfl ?_ [] s
    exact fun ms s => bind_error (positive_zero (delimits_afterMember ms s))

/-- The document of a hello is read if its rank is below the number of ranks, and malformed otherwise. -/
theorem parse_writeHello (nodeId : String) (rank rankSize : UInt64) :
    parse reader (writeHello nodeId rank rankSize) =
      if h : rank < rankSize then .ok (hello ⟨nodeId, rank, rankSize, h⟩) else .error .malformed := by
  split
  · rename_i h
    exact parse_write (hello ⟨nodeId, rank, rankSize, h⟩)
  · rename_i h
    have hidentity := identity_outOfRange nodeId h [ascii '\x7d']
    have hreader : reader (writeHello nodeId rank rankSize ++ []) = _ := variant_writeObject rfl _ []
    rw [List.append_nil] at hreader
    exact parse_of_error (hreader.trans (bind_error (bind_error hidentity)))

end ParamExchange.Wire.Control
