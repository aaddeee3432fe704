import AttributeStore.Proofs.Codec
import AttributeStore.Proofs.Table.BatchPut

/-!
# Entries refused as duplicates

A flush in batches tells keys apart by the bytes of their attributes. For strings, numbers and bytes
that is as good as the keys themselves; attributes of any other type have no bytes, so that keys
which differ in nothing else pass for one. What becomes of an entry depends on the entries staged
before it alone, whatever follows.
-/

namespace AttributeStore

open Screening (Joins Refused Screens Shares filling)

/-! ## The identity of a key -/

theorem byteArray_toList_loop_eq (bytes : ByteArray) (i : Nat) (done : List UInt8) :
    ByteArray.toList.loop bytes i done = done.reverse ++ bytes.data.toList.drop i := by
  fun_induction ByteArray.toList.loop bytes i done with
  | case1 i done hlt ih =>
    have hlength : i < bytes.data.toList.length := by simpa using hlt
    have hnext : bytes.data.toList.drop i = bytes.get! i :: bytes.data.toList.drop (i + 1) := by
      rw [List.drop_eq_getElem_cons hlength]
      congr 1
      obtain ⟨data⟩ := bytes
      exact (getElem!_pos data i _).symm
    rw [ih, hnext, List.reverse_cons, List.append_assoc, List.singleton_append]
  | case2 i done hge =>
    rw [List.drop_eq_nil_of_le (by simpa using hge), List.append_nil]

theorem toUTF8_toList_inj {text text' : String} :
    text.toUTF8.toList = text'.toUTF8.toList ↔ text = text' := by
  have hlist : ∀ bytes : ByteArray, bytes.toList = bytes.data.toList :=
    fun bytes => byteArray_toList_loop_eq bytes 0 []
  rw [hlist, hlist, Array.toList_inj, String.toUTF8_eq_toByteArray, String.toUTF8_eq_toByteArray,
    ← String.toByteArray_inj]
  exact ⟨ByteArray.ext, congrArg ByteArray.data⟩

/-- Key attributes of one type are told apart by their bytes. -/
theorem keyBytes_eq_iff {held held' : Attribute} (htype : held.wireType = held'.wireType)
    (hkey : held.wireType.IsKeyType) : keyBytes held = keyBytes held' ↔ held = held' := by
  have hkey' : held'.wireType.IsKeyType := htype ▸ hkey
  refine ⟨fun hbytes => ?_, congrArg keyBytes⟩
  rcases Attribute.eq_of_isKeyType hkey with ⟨text, rfl⟩ | ⟨text, rfl⟩ | ⟨bytes, rfl⟩
  · rcases Attribute.eq_of_isKeyType hkey' with ⟨text', rfl⟩ | ⟨text', rfl⟩ | ⟨bytes', rfl⟩
    · rw [toUTF8_toList_inj.1 hbytes]
    · cases htype
    · cases htype
  · rcases Attribute.eq_of_isKeyType hkey' with ⟨text', rfl⟩ | ⟨text', rfl⟩ | ⟨bytes', rfl⟩
    · cases htype
    · rw [toUTF8_toList_inj.1 hbytes]
    · cases htype
  · rcases Attribute.eq_of_isKeyType hkey' with ⟨text', rfl⟩ | ⟨text', rfl⟩ | ⟨bytes', rfl⟩
    · cases htype
    · cases htype
    · obtain rfl : bytes = bytes' := hbytes
      rfl

/-- An attribute of a type that keys may not have is as good as empty. -/
theorem keyBytes_eq_nil {held : Attribute} (h : ¬ held.wireType.IsKeyType) :
    keyBytes held = [] := by
  cases held with
  | leaf atom =>
    cases atom with
    | string => exact absurd (.inl rfl) h
    | number => exact absurd (.inr (.inl rfl)) h
    | binary => exact absurd (.inr (.inr rfl)) h
    | _ => rfl
  | _ => rfl

theorem keyIdentity_eq_iff {key key' : WireItem} :
    keyIdentity key = keyIdentity key' ↔
      ∀ name, (key.get? name).map keyBytes = (key'.get? name).map keyBytes := by
  constructor
  · intro h name
    have hlookup := congrArg (Entries.get? name) h
    rwa [keyIdentity, keyIdentity, Entries.get?_map, Entries.get?_map] at hlookup
  · intro h
    have hmap : key.map keyBytes = key'.map keyBytes := by
      ext name : 1
      rw [Named.get?_map, Named.get?_map, h]
    exact congrArg Named.entries hmap

/-- Two items agree in the attributes of a key that have a type which keys may have. -/
def AgreeOnKey (schema : TableSchema) (item other : WireItem) : Prop :=
  ∀ definition ∈ schema.keyDefinitions, definition.wireType.IsKeyType →
    item.get? definition.name = other.get? definition.name

theorem keyIdentity_keyPart_eq_iff {schema : TableSchema} {item other : WireItem}
    (hitem : HasKey schema.keyDefinitions item) (hother : HasKey schema.keyDefinitions other) :
    keyIdentity (keyPart schema.keyDefinitions item) =
        keyIdentity (keyPart schema.keyDefinitions other) ↔ AgreeOnKey schema item other := by
  rw [keyIdentity_eq_iff]
  simp only [get?_keyPart]
  constructor
  · intro h definition hm hkey
    obtain ⟨held, hheld, htype⟩ := hitem definition hm
    obtain ⟨held', hheld', htype'⟩ := hother definition hm
    have hbytes := h definition.name
    rw [if_pos (List.mem_map_of_mem hm), if_pos (List.mem_map_of_mem hm), hheld, hheld'] at hbytes
    have hsame := (keyBytes_eq_iff (htype.trans htype'.symm) (htype ▸ hkey)).1
      (Option.some.inj hbytes)
    rw [hheld, hheld', hsame]
  · intro h name
    split
    · rename_i hname
      obtain ⟨definition, hm, rfl⟩ := List.mem_map.1 hname
      by_cases hkey : definition.wireType.IsKeyType
      · rw [h definition hm hkey]
      · obtain ⟨held, hheld, htype⟩ := hitem definition hm
        obtain ⟨held', hheld', htype'⟩ := hother definition hm
        rw [hheld, hheld', Option.map_some, Option.map_some, keyBytes_eq_nil (htype ▸ hkey),
          keyBytes_eq_nil (htype' ▸ hkey)]
    · rfl

theorem agreeOnKey_iff_of_scalarKeys {schema : TableSchema} (hs : schema.ScalarKeys)
    {item other : WireItem} :
    AgreeOnKey schema item other ↔
      keyPart schema.keyDefinitions item = keyPart schema.keyDefinitions other := by
  constructor
  · intro h
    ext name : 1
    rw [get?_keyPart, get?_keyPart]
    split
    · rename_i hname
      obtain ⟨definition, hm, rfl⟩ := List.mem_map.1 hname
      exact h definition hm (hs definition hm)
    · rfl
  · intro h definition hm _
    have hname := congrArg (·.get? definition.name) h
    simpa only [get?_keyPart, if_pos (List.mem_map_of_mem hm)] using hname

/-! ## The rules at one entry -/

namespace Screening

variable {schema : TableSchema}

theorem Screens.of_append {start before rest accepted : List Entry}
    {refused : List (Entry × ValidationError)}
    (h : Screens schema start (before ++ rest) accepted refused) :
    ∃ earlier later refusedEarlier refusedLater, accepted = earlier ++ later ∧
      refused = refusedEarlier ++ refusedLater ∧
      Screens schema start before earlier refusedEarlier ∧
      Screens schema (start ++ earlier) rest later refusedLater := by
  induction before generalizing start accepted refused with
  | nil => exact ⟨[], accepted, [], refused, rfl, rfl, .nil start, by rwa [List.append_nil]⟩
  | cons entry before ih =>
    cases h with
    | accept hjoins hrest =>
      obtain ⟨earlier, later, refusedEarlier, refusedLater, rfl, rfl, hbefore, hlater⟩ := ih hrest
      rw [← List.append_cons] at hlater
      exact ⟨entry :: earlier, later, refusedEarlier, refusedLater, rfl, rfl,
        .accept hjoins hbefore, hlater⟩
    | refuse hrefused hrest =>
      obtain ⟨earlier, later, refusedEarlier, refusedLater, rfl, rfl, hbefore, hlater⟩ := ih hrest
      exact ⟨earlier, later, _ :: refusedEarlier, refusedLater, rfl, rfl,
        .refuse hrefused hbefore, hlater⟩

theorem Screens.hasKey {entries accepted : List Entry} {refused : List (Entry × ValidationError)}
    (h : Screens schema [] entries accepted refused) :
    ∀ entry ∈ accepted, HasKey schema.keyDefinitions entry.item := by
  obtain ⟨rfl, -⟩ := (screens_screen schema entries).unique h
  exact fun entry hm => (of_mem_accepted hm).2

theorem keyAttribute_ne_duplicateKey (item : WireItem) (definition : AttributeDefinition)
    (name : String) : schema.keyAttribute item definition ≠ .error (.duplicateKey name) := by
  unfold TableSchema.keyAttribute
  split
  · nofun
  · dsimp only
    split
    · nofun
    · nofun

theorem keyOf_ne_duplicateKey (item : WireItem) (name : String) :
    schema.keyOf item ≠ .error (.duplicateKey name) := by
  intro h
  rcases bind_eq_error.1 h with hhash | ⟨hash, -, hrest⟩
  · exact keyAttribute_ne_duplicateKey item _ name hhash
  · dsimp only at hrest
    split at hrest
    · cases hrest
    · rcases bind_eq_error.1 hrest with hrange | ⟨range, -, hdone⟩
      · exact keyAttribute_ne_duplicateKey item _ name hrange
      · cases hdone

/-- An entry is refused as a duplicate when it could join the batch but for its identity. -/
theorem refused_duplicateKey_iff {batch : List Entry} {entry : Entry} :
    Refused schema batch entry (.duplicateKey schema.name) ↔
      entry.expected.isEmpty = true ∧ ∃ key, schema.keyOf entry.item = .ok key ∧
        ∃ other ∈ batch, Shares schema key other := by
  constructor
  · intro h
    cases h with
    | key _ hkey => exact absurd hkey (keyOf_ne_duplicateKey _ _)
    | duplicate plain keyed hm hshares => exact ⟨plain, _, keyed, _, hm, hshares⟩
  · rintro ⟨plain, key, keyed, other, hm, hshares⟩
    exact .duplicate plain keyed hm hshares

theorem shares_iff_agreeOnKey {item key : WireItem} (hkey : schema.keyOf item = .ok key)
    {other : Entry} (hother : HasKey schema.keyDefinitions other.item) :
    Shares schema key other ↔ AgreeOnKey schema other.item item := by
  obtain ⟨hitem, rfl⟩ := (schema.keyOf_eq_ok_iff item key).1 hkey
  rw [← keyIdentity_keyPart_eq_iff hother hitem, Shares, TableSchema.keyOf_of_hasKey hother]
  simp only [Except.ok.injEq, exists_eq_left']

/-- The entry between others is accepted, or it is refused for a cause that the entries accepted
before it decide. -/
theorem exists_screens_at (schema : TableSchema) (before rest : List Entry) (entry : Entry) :
    ∃ earlier refusedEarlier verdict later refusedLater,
      let taken := if verdict.isNone then [entry] else []
      let left := verdict.toList.map fun cause => (entry, cause)
      Screens schema [] before earlier refusedEarlier ∧
      Screens schema (earlier ++ taken) rest later refusedLater ∧
      Screens schema [] (before ++ entry :: rest) (earlier ++ taken ++ later)
        (refusedEarlier ++ left ++ refusedLater) ∧
      ∀ cause, verdict = some cause ↔ Refused schema (filling earlier) entry cause := by
  have hscreens := screens_screen schema (before ++ entry :: rest)
  obtain ⟨earlier, fromEntry, refusedEarlier, refusedFrom, haccepted, hrefused, hbefore, hfrom⟩ :=
    hscreens.of_append
  rw [haccepted, hrefused] at hscreens
  rw [List.nil_append] at hfrom
  cases hfrom with
  | @accept _ _ later _ _ hjoins hlater =>
    refine ⟨earlier, refusedEarlier, none, later, refusedFrom, hbefore, hlater, ?_, ?_⟩
    · simpa using hscreens
    · intro cause
      constructor
      · nofun
      · exact fun h => absurd hjoins h.not_joins
  | @refuse _ _ _ _ held refusedLater h hlater =>
    refine ⟨earlier, refusedEarlier, some held, fromEntry, refusedLater, hbefore, ?_, ?_, ?_⟩
    · rwa [← List.append_nil earlier] at hlater
    · simpa using hscreens
    · intro cause
      constructor
      · rintro ⟨⟩
        exact h
      · exact fun h' => congrArg some (h.unique h')

end Screening

namespace Table

variable {σ : Type} (server : Backend σ) (table : Table) (state : σ)

theorem batchPut_of_screens {accepted : List Entry} {refused : List (Entry × ValidationError)}
    (h : Screens table.schema [] table.spool accepted refused) :
    let run := table.batchPut.run server state
    callsOf run.trace = (chunks batchSize accepted).map (batchCall table.fullName) ∧
    ∃ errors kept, run.value =
      (Aggregate.toResult ⟨serviceName,
        refused.map (fun (_, cause) => .validation cause) ++ errors⟩,
      { table with spool := [], errorItems := refused.map Prod.fst ++ kept }) := by
  obtain ⟨hvalue, hcalls⟩ := table.run_batchPut server state
  obtain ⟨rfl, rfl⟩ := (Screening.screens_screen table.schema table.spool).unique h
  exact ⟨hcalls, _, _, hvalue⟩

/-- What a flush in batches makes of an entry is decided when it comes to it. The entry is refused
as a duplicate exactly if it expects nothing, has a key, and agrees on it with an entry accepted
into the same batch before. Agreement is about strings, numbers and bytes only; where the key has
no other attributes, it is that the keys are equal. -/
theorem batchPut_refuses_duplicates {before rest : List Entry} {entry : Entry}
    (hspool : table.spool = before ++ entry :: rest) :
    let run := table.batchPut.run server state
    ∃ earlier refusedEarlier verdict later refusedLater,
      let taken := if verdict.isNone then [entry] else []
      let left := verdict.toList.map fun cause => (entry, cause)
      let refused := refusedEarlier ++ left ++ refusedLater
      Screens table.schema [] before earlier refusedEarlier ∧
      Screens table.schema (earlier ++ taken) rest later refusedLater ∧
      callsOf run.trace =
        (chunks batchSize (earlier ++ taken ++ later)).map (batchCall table.fullName) ∧
      (∃ errors kept, run.value =
        (Aggregate.toResult ⟨serviceName,
          refused.map (fun (_, cause) => .validation cause) ++ errors⟩,
        { table with spool := [], errorItems := refused.map Prod.fst ++ kept })) ∧
      (verdict = some (.duplicateKey table.schema.name) ↔
        entry.expected.isEmpty = true ∧ (∃ key, table.schema.keyOf entry.item = .ok key) ∧
          ∃ other ∈ filling earlier, AgreeOnKey table.schema other.item entry.item) ∧
      (table.schema.ScalarKeys →
        (verdict = some (.duplicateKey table.schema.name) ↔
          entry.expected.isEmpty = true ∧ ∃ key, table.schema.keyOf entry.item = .ok key ∧
            ∃ other ∈ filling earlier, table.schema.keyOf other.item = .ok key)) := by
  obtain ⟨earlier, refusedEarlier, verdict, later, refusedLater, hbefore, hrest, hscreens,
    hverdict⟩ := Screening.exists_screens_at table.schema before rest entry
  rw [← hspool] at hscreens
  obtain ⟨hcalls, hvalue⟩ := table.batchPut_of_screens server state hscreens
  have hkeyed : ∀ other ∈ filling earlier, HasKey table.schema.keyDefinitions other.item :=
    fun other hm => hbefore.hasKey other (List.mem_of_mem_drop hm)
  refine ⟨earlier, refusedEarlier, verdict, later, refusedLater, hbefore, hrest, hcalls, hvalue,
    ?_, ?_⟩
  · rw [hverdict, Screening.refused_duplicateKey_iff, ← exists_and_right]
    refine and_congr_right fun _ => exists_congr fun key => and_congr_right fun hkey => ?_
    refine exists_congr fun other => and_congr_right fun hm => ?_
    exact Screening.shares_iff_agreeOnKey hkey (hkeyed other hm)
  · intro hscalar
    rw [hverdict, Screening.refused_duplicateKey_iff]
    refine and_congr_right fun _ => exists_congr fun key => and_congr_right fun hkey => ?_
    refine exists_congr fun other => and_congr_right fun hm => ?_
    rw [Screening.shares_iff_agreeOnKey hkey (hkeyed other hm), agreeOnKey_iff_of_scalarKeys hscalar,
      TableSchema.keyOf_of_hasKey (hkeyed other hm), Except.ok.injEq,
      ((table.schema.keyOf_eq_ok_iff _ _).1 hkey).2]

def pair : List Entry :=
  [⟨personItem "ada", ∅⟩, ⟨personItem "bob", ∅⟩]

/-- The handle with two people staged, and the first of them once more. -/
def pairAgain : Table :=
  { peopleTable with spool := pair ++ [⟨personItem "ada", ∅⟩] }

theorem batchPut_refuses_duplicates_again :
    ∃ errors, (pairAgain.batchPut.run Store.backend peopleState).value.1 =
      Aggregate.toResult ⟨serviceName, .validation (.duplicateKey "people") :: errors⟩ := by
  have hspool : pairAgain.spool = pair ++ ⟨personItem "ada", ∅⟩ :: [] := rfl
  obtain ⟨earlier, refusedEarlier, verdict, later, refusedLater, hbefore, -, -,
    ⟨errors, kept, hvalue⟩, -, hduplicate⟩ :=
    batchPut_refuses_duplicates Store.backend pairAgain peopleState hspool
  have hpair := Screening.screens_screen pairAgain.schema pair
  have haccepted : (Screening.screen pairAgain.schema 0 [] pair).accepted = pair := by
    decide +kernel
  have hrefused : (Screening.screen pairAgain.schema 0 [] pair).refused = [] := by
    decide +kernel
  rw [haccepted, hrefused] at hpair
  obtain ⟨rfl, rfl⟩ := hpair.unique hbefore
  obtain rfl : verdict = some (.duplicateKey "people") :=
    (hduplicate (by decide)).2 ⟨rfl, personItem "ada", by decide, ⟨personItem "ada", ∅⟩,
      List.mem_cons_self, by decide⟩
  exact ⟨_, congrArg Prod.fst hvalue⟩

def flags : TableSchema :=
  .withHashKey "flags" ⟨"flag", .bool⟩

def flagEntry (flag : Bool) : Entry :=
  ⟨Named.singleton "flag" (.leaf (.bool flag)), ∅⟩

def bothFlags : Table :=
  { namePrefix := "dev_", schema := flags, spool := [flagEntry true, flagEntry false] }

/-- The keys are different, but truth values have no bytes by which to tell them apart. -/
theorem batchPut_refuses_other_flag :
    flags.keyOf (flagEntry true).item ≠ flags.keyOf (flagEntry false).item ∧
    (Screening.screen flags 0 [] bothFlags.spool).refused =
      [(flagEntry false, .duplicateKey "flags")] ∧
    (bothFlags.batchPut.run Store.backend
      ((create "dev_" flags).run Store.backend {}).state).value.2.errorItems =
        [flagEntry false] := by
  decide +kernel

end Table

end AttributeStore
