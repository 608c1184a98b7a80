import Orchestrator.Encoding.Scenario
/-!
What is written is read again. A written record gives each of its fields once, so that its reader finds under each name
what was put there; sets and maps are written in the order that they are kept in, so that to put them together again
entry by entry leaves nothing out.
-/

namespace Orchestrator

open Data Encoding

namespace Data.Value

variable {α β : Type}

theorem fields?_record_of_known {names : List String} {members : List (String × Value)}
    (hknown : ∀ m ∈ members, m.1 ∈ names) (hmembers : (members.map Prod.fst).Nodup) :
    (record members).fields? names = some members := by
  have hall : members.filter (fun m => names.contains m.1) = members :=
    List.filter_eq_self.mpr fun m hm => List.contains_iff_mem.mpr (hknown m hm)
  simp only [fields?, hall, hmembers, if_true]

theorem fields?_record {names : List String} {members : List (String × Value)} (h : members.map Prod.fst = names)
    (hnames : names.Nodup) : (record members).fields? names = some members := by
  refine fields?_record_of_known (fun m hm => ?_) (h ▸ hnames)
  rw [← h]
  exact List.mem_map_of_mem hm

theorem mapM_written {read : β → Option α} {write : α → β} (h : ∀ x, read (write x) = some x) (l : List α) :
    (l.map write).mapM read = some l := by
  have hread : read ∘ write = fun x => pure x := funext h
  rw [List.mapM_map, hread, List.mapM_pure, List.map_id', Option.pure_def]

theorem listOf?_list {read : Value → Option α} {write : α → Value} (h : ∀ x, read (write x) = some x) (l : List α) :
    listOf? read (list (l.map write)) = some l := mapM_written h l

theorem mapOf?_record {read : Value → Option α} {write : α → Value} (h : ∀ x, read (write x) = some x)
    (l : List (String × α)) : mapOf? read (record (l.map (fun e => (e.1, write e.2)))) = some l := by
  refine mapM_written (fun e => ?_) l
  rw [h, Option.map_some]

theorem natBelow?_int {bound n : Nat} (h : n < bound) : natBelow? bound (int n) = some n := by
  have hrange : (0 : Int) ≤ n ∧ (n : Int) < bound := ⟨Int.natCast_nonneg n, Int.ofNat_lt.mpr h⟩
  rw [natBelow?, if_pos hrange, Int.toNat_natCast]

theorem lookup_cons_ite (name key : String) (v : Value) (fields : List (String × Value)) :
    ((key, v) :: fields).lookup name = if name = key then some v else fields.lookup name := by
  by_cases h : name = key
  · rw [if_pos h, h, List.lookup_cons_self]
  · rw [if_neg h, List.lookup_cons, beq_eq_false_iff_ne.mpr h]

theorem required_cons (name key : String) (v : Value) (fields : List (String × Value)) (read : Value → Option α) :
    required ((key, v) :: fields) name read = if name = key then read v else required fields name read := by
  simp only [required, lookup_cons_ite]
  split <;> rfl

theorem optional_cons (name key : String) (v : Value) (fields : List (String × Value)) (default : α)
    (read : Value → Option α) : optional ((key, v) :: fields) name default read =
      if name = key then read v else optional fields name default read := by
  simp only [optional, lookup_cons_ite]
  by_cases h : name = key
  · rw [if_pos h, if_pos h]
  · rw [if_neg h, if_neg h]

end Data.Value

open Data.Value

namespace Encoding

theorem nullable?_maybeText (o : Option String) : nullable? text? (maybeText o) = some o := by
  cases o with
  | none => rfl
  | some s => rfl

theorem listOf?_texts (l : List String) : listOf? text? (texts l) = some l := by
  have hread : ∀ s, text? (.text s) = some s := fun _ => rfl
  exact listOf?_list hread l

end Encoding

/-! ## Sets and maps -/

theorem IdSet.ofList_toList (s : IdSet) : ofList s.toList = s := by
  refine ext fun id => ?_
  rw [mem_ofList, mem_def]

theorem IdSet.decode?_encode (s : IdSet) : decode? s.encode = some s := by
  rw [decode?, encode, listOf?_texts, Option.map_some, ofList_toList]

namespace IdMap

variable {α : Type}

/-- To file ascending entries into a map hides what it has under their keys, and nothing else. -/
theorem get?_fileAll {l : List (String × α)} (hl : l.Pairwise (fun a b => a.1 < b.1)) (m : IdMap α) (key : String) :
    (l.foldl (fun m e => m.insert e.1 e.2) m).get? key = (search key l).or (m.get? key) := by
  induction l generalizing m with
  | nil => rfl
  | cons e rest ih =>
      obtain ⟨hfirst, hrest⟩ := List.pairwise_cons.mp hl
      rw [List.foldl_cons, ih hrest, get?_insert, search]
      by_cases hkey : key = e.1
      · have habsent : search key rest = none := by
          refine search_eq_none.mpr fun other hother heq => ?_
          have hlt := hfirst other hother
          rw [heq, hkey] at hlt
          exact String.lt_irrefl e.1 hlt
        rw [if_pos hkey, if_pos hkey, habsent, Option.none_or, Option.some_or]
      · rw [if_neg hkey, if_neg hkey]

theorem ofList_entries (m : IdMap α) : ofList m.entries = m := by
  refine ext fun key => ?_
  rw [ofList, get?_fileAll m.ascending, get?_empty, Option.or_none]
  rfl

theorem decode?_encode {read : Value → Option α} {write : α → Value} (h : ∀ x, read (write x) = some x)
    (m : IdMap α) : decode? read (m.encode write) = some m := by
  rw [decode?, encode, mapOf?_record h, Option.map_some, ofList_entries]

end IdMap

/-! ## Records -/

theorem Severity.decode?_encode (s : Severity) : decode? s.encode = some s := ofName?_name s

theorem Dependency.decode?_encode (d : Dependency) : decode? d.encode = some d := by
  rw [decode?, encode, fields?_record]
  · simp [required_cons, optional_cons, text?, Severity.decode?_encode]
  · rfl
  · decide

theorem Component.decode?_encode (c : Component) : decode? c.encode = some c := by
  have hdependencies :
      listOf? Dependency.decode? (.list (c.dependencies.map Dependency.encode)) = some c.dependencies :=
    listOf?_list Dependency.decode?_encode c.dependencies
  rw [decode?, encode, fields?_record]
  · simp [required_cons, optional_cons, text?, nullable?_maybeText, hdependencies]
  · rfl
  · decide

theorem Service.decode?_encode (s : Service) : decode? s.encode = some s := by
  rw [decode?, encode, fields?_record]
  · simp [required_cons, optional_cons, text?, bool?, nullable?_maybeText]
  · rfl
  · decide

theorem Table.ofFields?_encodeFields (t : Table Severity) : ofFields? t.encodeFields = some t := by
  simp [ofFields?, encodeFields, optional_cons, IdMap.decode?_encode Severity.decode?_encode]

theorem Table.decode?_encode (t : Table Severity) : decode? t.encode = some t := by
  rw [decode?, encode, fields?_record, Option.bind_some, ofFields?_encodeFields]
  · rfl
  · decide

theorem Layer.decode?_encode (l : Layer) : decode? l.encode = some l := by
  have hdemands : Table.ofFields? (("name", .text l.name) :: l.demands.encodeFields) = some l.demands :=
    l.demands.ofFields?_encodeFields
  rw [decode?, encode, fields?_record]
  · simp [required_cons, text?, hdemands]
  · rfl
  · decide

theorem Settings.decode?_encode (s : Settings) : decode? s.encode = some s := by
  rw [decode?, encode, fields?_record]
  · simp [optional_cons, Table.decode?_encode]
  · rfl
  · decide

theorem SolverOptions.word64?_int (n : UInt64) : word64? (.int n.toNat) = some n := by
  have hread : natBelow? UInt64.size (.int n.toNat) = some n.toNat := natBelow?_int n.toNat_lt_size
  rw [word64?, hread, Option.map_some, UInt64.ofNat_toNat]

theorem SolverOptions.decode?_encode (o : SolverOptions) : decode? o.encode = some o := by
  rw [decode?, encode, fields?_record]
  -- Step by step: `simp` would have the bound of a word compared by counting up to it.
  · rw [Option.bind_eq_bind, Option.bind_some, optional_cons, if_pos rfl, word64?_int, Option.bind_eq_bind,
      Option.bind_some, optional_cons, if_neg (by decide), optional_cons, if_pos rfl, word64?_int]
    rfl
  · rfl
  · decide

theorem Trigger.decode?_encode (t : Trigger) : decode? t.encode = some t := by
  rw [decode?, encode, fields?_record]
  · simp [required_cons, text?, Layer.decode?_encode]
  · rfl
  · decide

theorem Scenario.decode?_encode (s : Scenario) : decode? s.encode = some s := by
  have hservices : listOf? Service.decode? (.list (s.services.map Service.encode)) = some s.services :=
    listOf?_list Service.decode?_encode s.services
  have hcomponents : listOf? Component.decode? (.list (s.components.map Component.encode)) = some s.components :=
    listOf?_list Component.decode?_encode s.components
  have hlayers : listOf? Layer.decode? (.list (s.layers.map Layer.encode)) = some s.layers :=
    listOf?_list Layer.decode?_encode s.layers
  have htriggers : listOf? Trigger.decode? (.list (s.triggers.map Trigger.encode)) = some s.triggers :=
    listOf?_list Trigger.decode?_encode s.triggers
  rw [decode?, encode, fields?_record]
  · simp [optional_cons, bool?, listOf?_texts, hservices, hcomponents, hlayers, htriggers, Settings.decode?_encode,
      SolverOptions.decode?_encode]
  · rfl
  · decide

/-! ## Plans -/

theorem Steps.decode?_encode (s : Steps) (h : s.cost < UInt32.size) :
    decode? (.record s.encodeFields) = some s := by
  rw [decode?, encodeFields, fields?_record]
  · simp [required_cons, IdSet.decode?_encode, natBelow?_int h]
  · rfl
  · decide

/-- The status stands beside the steps and is told apart from them by its name. -/
theorem Plan.splitStatus?_encode (s : Steps) :
    splitStatus? (.record (("status", .text "ready") :: s.encodeFields)) = some ("ready", .record s.encodeFields) := by
  simp [splitStatus?, Steps.encodeFields]

theorem Plan.decode?_encode (p : Plan) (h : ∀ steps, p = .ready steps → steps.cost < UInt32.size) :
    decode? p.encode = some p := by
  cases p with
  | impossible => rfl
  | ready steps =>
      have hsteps := steps.decode?_encode (h steps rfl)
      rw [decode?, encode, splitStatus?_encode]
      simp [hsteps]

end Orchestrator
