import AttributeStore.Proofs.Table.Underway
import AttributeStore.Proofs.Table.Written

/-!
# Flushes that take turns

On one handle entries are staged and flushes begun, any number of them at a time, and their steps
follow one another in any order. However they do, and whatever is answered, each staged entry is in
the spool or with the one flush that took it: the takings of the flushes, in the order in which they
began, and then the spool, are all that was ever staged.
-/

namespace AttributeStore

/-- A handle and the flushes that took its spool, in the order in which they did. -/
structure Traffic where
  table : Table
  flushes : List Underway

/-- A step on a handle: an entry is staged, a flush takes the spool, or one goes on. -/
inductive Move
  | stage (entry : Entry)
  | take (manner : Manner)
  | proceed (place : Nat) (answers : Answers)

namespace Move

def staged? : Move → Option Entry
  | stage entry => some entry
  | take _ | proceed _ _ => none

def takes : Move → Bool
  | take _ => true
  | stage _ | proceed _ _ => false

end Move

def stagedBy (moves : List Move) : List Entry :=
  moves.filterMap Move.staged?

namespace Traffic

def opened (table : Table) : Traffic :=
  ⟨table, []⟩

def perform (traffic : Traffic) : Move → Traffic
  | .stage entry => { traffic with table := traffic.table.addEntry entry }
  | .take manner =>
    ⟨traffic.table.takeSpool.2, traffic.flushes ++ [.begin manner traffic.table]⟩
  | .proceed place answers =>
    match traffic.flushes[place]? with
    | none => traffic
    | some flush => ⟨flush.leave traffic.table, traffic.flushes.set place (flush.step answers)⟩

def after (traffic : Traffic) (moves : List Move) : Traffic :=
  moves.foldl perform traffic

def takings (traffic : Traffic) : List (List Entry) :=
  traffic.flushes.map Underway.taken

variable {traffic : Traffic} {start : Table} {moves : List Move}

theorem perform_of_absent {place : Nat} (h : traffic.flushes[place]? = none) (answers : Answers) :
    traffic.perform (.proceed place answers) = traffic := by
  simp only [perform, h]

theorem perform_of_present {place : Nat} {flush : Underway}
    (h : traffic.flushes[place]? = some flush) (answers : Answers) :
    traffic.perform (.proceed place answers) =
      ⟨flush.leave traffic.table, traffic.flushes.set place (flush.step answers)⟩ := by
  simp only [perform, h]

/-! ## Where staged entries are -/

theorem spool_leave (flush : Underway) (table : Table) :
    (flush.leave table).spool = table.spool := by
  unfold Underway.leave
  split <;> rfl

theorem map_taken_set {flushes : List Underway} {place : Nat} {flush : Underway}
    (h : flushes[place]? = some flush) (answers : Answers) :
    (flushes.set place (flush.step answers)).map Underway.taken = flushes.map Underway.taken := by
  have htaken : (flushes.map Underway.taken)[place]? = some (flush.step answers).taken := by
    rw [List.getElem?_map, h, Option.map_some]
    exact congrArg (fun found => some found.spool) (Underway.found_step flush answers).symm
  obtain ⟨hlt, hget⟩ := List.getElem?_eq_some_iff.1 htaken
  rw [List.map_set, ← hget, List.set_getElem_self]

theorem takings_perform (traffic : Traffic) (move : Move) :
    ∃ fresh, (traffic.perform move).takings = traffic.takings ++ fresh ∧
      fresh.length = [move].countP Move.takes ∧
      fresh.flatten ++ (traffic.perform move).table.spool =
        traffic.table.spool ++ stagedBy [move] := by
  cases move with
  | stage entry => exact ⟨[], (List.append_nil _).symm, rfl, rfl⟩
  | take manner =>
    refine ⟨[traffic.table.spool], List.map_append, rfl, ?_⟩
    rw [List.flatten_singleton]
    rfl
  | proceed place answers =>
    cases hat : traffic.flushes[place]? with
    | none =>
      rw [perform_of_absent hat]
      exact ⟨[], (List.append_nil _).symm, rfl, (List.append_nil _).symm⟩
    | some flush =>
      rw [perform_of_present hat]
      exact ⟨[], (map_taken_set hat answers).trans (List.append_nil _).symm, rfl,
        (spool_leave flush traffic.table).trans (List.append_nil _).symm⟩

theorem takings_after (traffic : Traffic) (moves : List Move) :
    ∃ fresh, (traffic.after moves).takings = traffic.takings ++ fresh ∧
      fresh.length = moves.countP Move.takes ∧
      fresh.flatten ++ (traffic.after moves).table.spool =
        traffic.table.spool ++ stagedBy moves := by
  unfold after
  induction moves generalizing traffic with
  | nil => exact ⟨[], (List.append_nil _).symm, rfl, (List.append_nil _).symm⟩
  | cons move rest ih =>
    obtain ⟨first, htakings, hlength, hspool⟩ := traffic.takings_perform move
    obtain ⟨later, htakings', hlength', hspool'⟩ := ih (traffic.perform move)
    refine ⟨first ++ later, ?_, ?_, ?_⟩
    · rw [List.foldl_cons, htakings', htakings, List.append_assoc]
    · rw [List.length_append, hlength, hlength', ← List.countP_append]
      rfl
    · rw [List.foldl_cons, List.flatten_append, List.append_assoc, hspool', ← List.append_assoc,
        hspool, List.append_assoc]
      have happend : stagedBy [move] ++ stagedBy rest = stagedBy (move :: rest) :=
        (List.filterMap_append (l := [move])).symm
      rw [happend]

/-! ## What flushes tell and keep -/

/-- Each flush is under way as it should be, and the error items of the handle are those of a flush
that has ended, if any has. -/
structure Orderly (start : Table) (traffic : Traffic) : Prop where
  sound : ∀ flush ∈ traffic.flushes, flush.Sound
  stored : traffic.table.errorItems = start.errorItems ∨
    ∃ flush ∈ traffic.flushes, ∃ result, flush.progress = .ended result traffic.table.errorItems

theorem orderly_opened (start : Table) : Orderly start (opened start) :=
  ⟨fun _ hm => (nomatch hm), .inl rfl⟩

theorem Orderly.perform (h : Orderly start traffic) (move : Move) :
    Orderly start (traffic.perform move) := by
  cases move with
  | stage entry => exact ⟨h.sound, h.stored⟩
  | take manner =>
    constructor
    · intro flush hm
      rcases List.mem_append.1 hm with hm | hm
      · exact h.sound flush hm
      · obtain rfl := List.mem_singleton.1 hm
        exact Underway.sound_begin manner traffic.table
    · rcases h.stored with hstart | ⟨flush, hm, hended⟩
      · exact .inl hstart
      · exact .inr ⟨flush, List.mem_append_left _ hm, hended⟩
  | proceed place answers =>
    cases hat : traffic.flushes[place]? with
    | none =>
      rw [perform_of_absent hat]
      exact h
    | some flush =>
      rw [perform_of_present hat]
      have hflush := List.mem_of_getElem? hat
      constructor
      · intro other hother
        rcases List.mem_or_eq_of_mem_set hother with hold | rfl
        · exact h.sound other hold
        · exact (h.sound flush hflush).step answers
      · obtain ⟨hlt, -⟩ := List.getElem?_eq_some_iff.1 hat
        rcases flush.leave_cases traffic.table answers with hsame | ⟨result, hended⟩
        · rw [hsame]
          rcases h.stored with hstart | ⟨ender, hender, result, hended⟩
          · exact .inl hstart
          · refine .inr ⟨ender, ?_, result, hended⟩
            obtain ⟨other, hother⟩ := List.getElem?_of_mem hender
            by_cases hplace : place = other
            · subst hplace
              obtain rfl := Option.some.inj (hat.symm.trans hother)
              rw [Underway.step_of_ended hended]
              exact List.mem_set hlt _
            · exact List.mem_of_getElem? ((List.getElem?_set_ne hplace).trans hother)
        · exact .inr ⟨_, List.mem_set hlt _, result, hended⟩

theorem Orderly.after (h : Orderly start traffic) (moves : List Move) :
    Orderly start (traffic.after moves) := by
  unfold Traffic.after
  induction moves generalizing traffic with
  | nil => exact h
  | cons move rest ih => exact ih (h.perform move)

/-! ## Undisturbed flushes -/

/-- The only flush goes on to the end of what is left, as a backend answers it. -/
theorem exists_after_proceed {σ : Type} (backend : Backend σ)
    (rest : Program (Except Error Unit × Table)) (state : σ) (table : Table) (manner : Manner)
    (found : Table) (exchanges : List Exchange) :
    let run := rest.run backend state
    ∃ (answers : List Answers) (more : List Exchange),
      (Traffic.mk table [⟨manner, found, exchanges, .sending rest⟩]).after
          (answers.map (.proceed 0)) =
        ⟨{ table with errorItems := run.value.2.errorItems },
          [⟨manner, found, exchanges ++ more, .ended run.value.1 run.value.2.errorItems⟩]⟩ ∧
      more.map Exchange.call = callsOf run.trace := by
  induction rest generalizing state exchanges with
  | done value =>
    refine ⟨[fun _ _ => .error ⟨""⟩], [], ?_, rfl⟩
    rw [List.append_nil]
    rfl
  | call operation request next ih =>
    obtain ⟨answers, more, hafter, hcalls⟩ := ih (backend.answer operation request state).1
      (backend.answer operation request state).2
      (exchanges ++ [⟨operation, request, (backend.answer operation request state).1⟩])
    refine ⟨(fun operation request => (backend.answer operation request state).1) :: answers,
      ⟨operation, request, (backend.answer operation request state).1⟩ :: more, ?_, ?_⟩
    · rw [List.append_cons]
      exact hafter
    · rw [List.map_cons, hcalls]
      rfl
  | report event next ih =>
    obtain ⟨answers, more, hafter, hcalls⟩ := ih state exchanges
    exact ⟨(fun _ _ => .error ⟨""⟩) :: answers, more, hafter, hcalls⟩

/-- A flush between whose steps nothing else happens does what its run does. -/
theorem after_undisturbed {σ : Type} (backend : Backend σ) (state : σ) (table : Table)
    (manner : Manner) :
    let run := (manner.flush table).run backend state
    ∃ (answers : List Answers) (flush : Underway),
      (opened table).after (.take manner :: answers.map (.proceed 0)) = ⟨run.value.2, [flush]⟩ ∧
      flush.progress = .ended run.value.1 run.value.2.errorItems ∧
      flush.exchanges.map Exchange.call = callsOf run.trace := by
  intro run
  obtain ⟨answers, more, hafter, hcalls⟩ := exists_after_proceed backend (manner.flush table) state
    table.takeSpool.2 manner table []
  obtain ⟨_, hcompletes, -⟩ := Program.completes_run backend (manner.flush table) state
  obtain ⟨kept, -, hvalue⟩ := Underway.accounts_of_completes hcompletes
  have htable : { table.takeSpool.2 with errorItems := run.value.2.errorItems } = run.value.2 := by
    rw [show run.value = _ from hvalue]
    rfl
  rw [htable] at hafter
  exact ⟨answers, _, hafter, rfl, hcalls⟩

/-! ## Sharing out what was staged -/

theorem sublist_flatten {parts wholes : List (List Entry)}
    (h : List.Forall₂ List.Sublist parts wholes) : parts.flatten.Sublist wholes.flatten := by
  induction h with
  | nil => exact List.Sublist.refl _
  | cons hpart _ ih => exact hpart.append ih

theorem Orderly.exists_sent (h : Orderly start traffic) :
    ∃ sent, List.Forall₂ Underway.Sent traffic.flushes sent ∧
      List.Forall₂ List.Sublist sent traffic.takings := by
  have hsound := h.sound
  unfold takings
  generalize traffic.flushes = flushes at hsound ⊢
  induction flushes with
  | nil => exact ⟨[], .nil, .nil⟩
  | cons flush rest ih =>
    rw [List.forall_mem_cons] at hsound
    obtain ⟨entries, hentries, hsub⟩ := hsound.1.exists_sent
    obtain ⟨sent, hsent, hsubs⟩ := ih hsound.2
    exact ⟨entries :: sent, .cons hentries hsent, .cons hsub hsubs⟩

/-- What becomes of the entries staged on a handle while flushes take turns. -/
structure SharedOut (start : Table) (staged : List Entry) (traffic : Traffic) : Prop where
  /-- Every entry that was ever staged is with one flush or in the spool. -/
  placed : traffic.takings.flatten ++ traffic.table.spool = start.spool ++ staged
  /-- A flush sends only entries that it took, so that no entry is sent by two of them, or twice, or
  while it is in the spool. -/
  sent : ∃ sent, List.Forall₂ Underway.Sent traffic.flushes sent ∧
    List.Forall₂ List.Sublist sent traffic.takings ∧
    (sent.flatten ++ traffic.table.spool).Sublist (start.spool ++ staged)
  /-- No flush takes anything after it began: what is in the spool and what is staged later goes to
  later flushes, and stays in the spool until there are any. -/
  later : ∀ moves, ∃ fresh,
    (traffic.after moves).takings = traffic.takings ++ fresh ∧
    fresh.length = moves.countP Move.takes ∧
    fresh.flatten ++ (traffic.after moves).table.spool = traffic.table.spool ++ stagedBy moves
  /-- A flush that has ended tells errors about entries that it took and answers that it got. -/
  told : ∀ flush ∈ traffic.flushes, ∀ result errorItems,
    flush.progress = .ended result errorItems →
    ∃ errors, result = Aggregate.toResult ⟨serviceName, errors⟩ ∧
      ∀ error ∈ errors, Speaks flush.found flush.taken flush.exchanges error
  /-- A flush that has ended keeps entries that it took, if no answer that it got gives back writes
  of others. -/
  kept : ∀ flush ∈ traffic.flushes, ∀ result errorItems,
    flush.progress = .ended result errorItems →
    (∀ exchange ∈ flush.exchanges, exchange.GivesBack flush.found.fullName) →
    ∀ entry ∈ errorItems, entry ∈ flush.taken
  /-- The error items of the handle are those of a flush that has ended. -/
  stored : traffic.table.errorItems = start.errorItems ∨
    ∃ flush ∈ traffic.flushes, ∃ result, flush.progress = .ended result traffic.table.errorItems

/-- However stagings and the steps of any number of flushes follow one another, and whatever is
answered, each staged entry is handled by at most one flush, and by none while it is staged. -/
theorem flushes_share_out_staged (start : Table) (moves : List Move) :
    SharedOut start (stagedBy moves) ((opened start).after moves) := by
  have h := (orderly_opened start).after moves
  have hplaced : ((opened start).after moves).takings.flatten ++
      ((opened start).after moves).table.spool = start.spool ++ stagedBy moves := by
    obtain ⟨fresh, htakings, -, hspool⟩ := (opened start).takings_after moves
    rw [htakings]
    exact hspool
  obtain ⟨sent, hsent, hsubs⟩ := h.exists_sent
  exact {
    placed := hplaced
    sent := by
      refine ⟨sent, hsent, hsubs, ?_⟩
      rw [← hplaced]
      exact (sublist_flatten hsubs).append_right _
    later := ((opened start).after moves).takings_after
    told := fun flush hm _ _ hended => ((h.sound flush hm).of_ended hended).1
    kept := fun flush hm _ _ hended => ((h.sound flush hm).of_ended hended).2
    stored := h.stored }

/-- A store that refuses all calls but batches, and gives back some entries for each batch. -/
def givingBack (entries : List Entry) : Answers := fun operation _ =>
  match operation with
  | .batchWriteItem =>
    let writes := (Table.batchWrites entries).map Write.toWire
    .ok { unprocessed := some (Named.singleton "dev_people" writes) }
  | _ => .error ⟨"refused"⟩

def person (id : String) : Entry :=
  ⟨Table.personItem id, ∅⟩

/-- Ada is staged and a flush takes her; Bob is staged, and a second flush takes him before the
first has sent anything. The store gives Ada back and refuses Bob. -/
def crossing : List Move :=
  [.stage (person "ada"), .take .inBatches, .stage (person "bob"), .take .oneByOne] ++
    (List.replicate 4 [.proceed 1 (givingBack [person "ada"]),
      .proceed 0 (givingBack [person "ada"])]).flatten

theorem flushes_share_out_crossing :
    ∃ first second result result',
      ((opened Table.peopleTable).after crossing).flushes = [first, second] ∧
      first.progress = .ended result [person "ada"] ∧
      second.progress = .ended result' [person "bob"] ∧
      (∀ exchange ∈ first.exchanges, exchange.GivesBack first.found.fullName) ∧
      person "ada" ∈ first.taken ∧
      SharedOut Table.peopleTable [person "ada", person "bob"]
        ((opened Table.peopleTable).after crossing) := by
  have hshared : SharedOut Table.peopleTable [person "ada", person "bob"]
      ((opened Table.peopleTable).after crossing) :=
    flushes_share_out_staged Table.peopleTable crossing
  have hflushes : ((opened Table.peopleTable).after crossing).flushes = [_, _] := rfl
  have hback : ∀ exchange ∈ (((opened Table.peopleTable).after crossing).flushes[0]).exchanges,
      exchange.GivesBack "dev_people" := by
    intro exchange hm
    obtain rfl := List.mem_singleton.1 hm
    rintro request reply heq write hwrite
    cases heq
    exact hwrite
  have hfirst := hshared.kept _ (List.mem_cons_self) _ _ rfl hback
  exact ⟨_, _, _, _, hflushes, rfl, rfl, hback, hfirst _ (List.mem_singleton_self _), hshared⟩

def foreignAnswer : List Move :=
  [.stage (person "ada"), .take .inBatches] ++
    List.replicate 4 (.proceed 0 (givingBack [person "bob"]))

/-- A flush can keep an entry that it did not take, where an answer gives back a write that the
batch it answers did not have. -/
theorem flush_keeps_foreign_entry :
    ∃ flush result,
      ((opened Table.peopleTable).after foreignAnswer).flushes = [flush] ∧
      flush.taken = [person "ada"] ∧
      flush.progress = .ended result [person "bob"] ∧
      ((opened Table.peopleTable).after foreignAnswer).table.errorItems = [person "bob"] ∧
      person "bob" ∉ flush.taken := by
  refine ⟨_, _, rfl, rfl, rfl, rfl, ?_⟩
  decide

end Traffic

end AttributeStore
