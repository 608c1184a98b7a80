import Orchestrator.Proofs.Encoding.Roundtrip
/-!
What a document leaves open. A format says of each field of a record whether it has to be given and, where it need not,
what a record without it is taken to say. To write all of that into a document, at every depth, changes nothing for who
reads it; and what was written by this program is complete already.
-/

namespace Orchestrator

open Data Data.Value

namespace Encoding

/-- A field of a record, as a format describes it. -/
structure FieldFormat where
  name : String
  /-- What a record without the field is taken to say; a field for which nothing is assumed has to be given. -/
  assumed? : Option Value
  /-- What is given, completed in its turn. -/
  complete : Value → Value

namespace FieldFormat

def needed (name : String) : FieldFormat := ⟨name, none, fun v => v⟩

def assumed (name : String) (value : Value) : FieldFormat := ⟨name, some value, fun v => v⟩

def inside (f : FieldFormat) (complete : Value → Value) : FieldFormat := { f with complete }

/-- What a record that gives these fields says in this one, after completion. -/
def value? (f : FieldFormat) (given : List (String × Value)) : Option Value :=
  ((given.lookup f.name).map f.complete).or f.assumed?

end FieldFormat

def completeFields (format : List FieldFormat) (given : List (String × Value)) : List (String × Value) :=
  format.filterMap fun f => (f.value? given).map fun v => (f.name, v)

/-- What cannot be a record of this format is left as it is. -/
def completeRecord (format : List FieldFormat) (v : Value) : Value :=
  ((v.fields? (format.map FieldFormat.name)).map fun given => .record (completeFields format given)).getD v

def completeItems (complete : Value → Value) : Value → Value
  | .list items => .list (items.map complete)
  | .array items => .array (items.map complete)
  | v => v

section Reading

variable {α β : Type} {format : List FieldFormat}

theorem completeFields_names (given : List (String × Value)) :
    (completeFields format given).map Prod.fst =
      (format.filter fun f => (f.value? given).isSome).map FieldFormat.name := by
  induction format with
  | nil => rfl
  | cons f rest ih =>
      rw [completeFields, List.filterMap_cons, List.filter_cons]
      cases hvalue : f.value? given with
      | none => exact ih
      | some v => exact congrArg (f.name :: ·) ih

theorem name_mem_of_mem_completeFields {given : List (String × Value)} {m : String × Value}
    (hm : m ∈ completeFields format given) : m.1 ∈ format.map FieldFormat.name := by
  obtain ⟨f, hf, hvalue⟩ := List.mem_filterMap.mp hm
  obtain ⟨v, -, rfl⟩ := Option.map_eq_some_iff.mp hvalue
  exact List.mem_map_of_mem hf

/-- The names of a format differ, so that each field is found under its own. -/
theorem lookup_completeFields (hnames : (format.map FieldFormat.name).Nodup) {f : FieldFormat} (hf : f ∈ format)
    (given : List (String × Value)) : (completeFields format given).lookup f.name = f.value? given := by
  induction format with
  | nil => exact absurd hf List.not_mem_nil
  | cons g rest ih =>
      obtain ⟨hfirst, hrest⟩ := List.nodup_cons.mp hnames
      rw [completeFields, List.filterMap_cons]
      obtain rfl | hin := List.mem_cons.mp hf
      · cases hvalue : f.value? given with
        | none =>
            -- The field is left out, and no later one has its name.
            refine List.lookup_eq_none_iff.mpr fun m hm => bne_iff_ne.mpr fun heq => hfirst ?_
            rw [heq]
            exact name_mem_of_mem_completeFields hm
        | some v => exact List.lookup_cons_self
      · cases hvalue : g.value? given with
        | none => exact ih hrest hin
        | some v =>
            have hother : f.name ≠ g.name := fun heq => hfirst (heq ▸ List.mem_map_of_mem hin)
            refine (lookup_cons_ite _ _ _ _).trans ?_
            rw [if_neg hother]
            exact ih hrest hin

/-- The `i`-th field of the format has to be given. What follows in the reader is left to be compared. -/
theorem bind_required (read : Value → Option α) (hnames : (format.map FieldFormat.name).Nodup) {f : FieldFormat}
    (i : Nat) (hf : format[i]? = some f) (hneeded : f.assumed? = none) (hread : ∀ v, read (f.complete v) = read v)
    {given : List (String × Value)} {next next' : α → Option β} (hnext : ∀ a, next a = next' a) :
    (required (completeFields format given) f.name read).bind next = (required given f.name read).bind next' := by
  rw [required, required, lookup_completeFields hnames (List.mem_of_getElem? hf), FieldFormat.value?, hneeded,
    Option.or_none, funext hnext]
  cases given.lookup f.name with
  | none => rfl
  | some v => exact congrArg (·.bind next') (hread v)

/-- The `i`-th field of the format need not be given, and the reader takes from what is assumed its own default. -/
theorem bind_optional (read : Value → Option α) (hnames : (format.map FieldFormat.name).Nodup) {f : FieldFormat}
    (i : Nat) (hf : format[i]? = some f) {value : Value} (hassumed : f.assumed? = some value) {default : α}
    (hdefault : read value = some default) (hread : ∀ v, read (f.complete v) = read v)
    {given : List (String × Value)} {next next' : α → Option β} (hnext : ∀ a, next a = next' a) :
    (Value.optional (completeFields format given) f.name default read).bind next =
      (Value.optional given f.name default read).bind next' := by
  rw [Value.optional, Value.optional, lookup_completeFields hnames (List.mem_of_getElem? hf), FieldFormat.value?,
    hassumed, funext hnext]
  cases given.lookup f.name with
  | none => exact congrArg (·.bind next') hdefault
  | some v => exact congrArg (·.bind next') (hread v)

theorem fields?_completeRecord (hnames : (format.map FieldFormat.name).Nodup) (v : Value) :
    (completeRecord format v).fields? (format.map FieldFormat.name) =
      (v.fields? (format.map FieldFormat.name)).map (completeFields format) := by
  rw [completeRecord]
  cases hgiven : v.fields? (format.map FieldFormat.name) with
  | none => exact hgiven
  | some given =>
      refine fields?_record_of_known (fun m hm => name_mem_of_mem_completeFields hm) ?_
      rw [completeFields_names]
      exact hnames.sublist (List.filter_sublist.map _)

/-- A reader that finds the same in the completed fields finds the same in the completed record. -/
theorem bind_fields?_completeRecord {names : List String} (hformat : format.map FieldFormat.name = names)
    (hnames : names.Nodup) {readFields : List (String × Value) → Option α}
    (h : ∀ given, readFields (completeFields format given) = readFields given) (v : Value) :
    ((completeRecord format v).fields? names).bind readFields = (v.fields? names).bind readFields := by
  subst hformat
  rw [fields?_completeRecord hnames]
  cases v.fields? (format.map FieldFormat.name) with
  | none => rfl
  | some given => exact h given

theorem listOf?_completeItems {read : Value → Option α} {complete : Value → Value}
    (h : ∀ v, read (complete v) = read v) (v : Value) : listOf? read (completeItems complete v) = listOf? read v := by
  have hread : read ∘ complete = read := funext h
  cases v with
  | list items | array items => exact List.mapM_map.trans (congrArg (List.mapM · items) hread)
  | null | bool _ | int _ | real | text _ | record _ | table _ | garbled => rfl

end Reading

end Encoding

open Encoding FieldFormat

/-! ## The formats -/

def Dependency.format : List FieldFormat := [needed "service", assumed "level" (.text "passive")]

def Dependency.completed : Value → Value := completeRecord format

def Component.format : List FieldFormat :=
  [needed "id", assumed "version" (.text ""), assumed "implements" .null,
   (assumed "dependencies" (.list [])).inside (completeItems Dependency.completed), assumed "error" .null]

def Component.completed : Value → Value := completeRecord format

def Service.format : List FieldFormat := [needed "id", assumed "external" (.bool false), assumed "error" .null]

def Service.completed : Value → Value := completeRecord format

def Table.format : List FieldFormat := [assumed "components" (.record []), assumed "services" (.record [])]

def Table.completed : Value → Value := completeRecord format

def Layer.format : List FieldFormat :=
  [needed "name", assumed "components" (.record []), assumed "services" (.record [])]

def Layer.completed : Value → Value := completeRecord format

def Settings.format : List FieldFormat :=
  [(assumed "system" Table.empty.encode).inside Table.completed,
   (assumed "user" Table.empty.encode).inside Table.completed,
   (assumed "session" Table.empty.encode).inside Table.completed]

def Settings.completed : Value → Value := completeRecord format

def SolverOptions.format : List FieldFormat :=
  [assumed "max_free_components" (.int 20), assumed "parallel_threshold" (.int 14)]

def SolverOptions.completed : Value → Value := completeRecord format

def Trigger.format : List FieldFormat := [needed "component", (needed "layer").inside Layer.completed]

def Trigger.completed : Value → Value := completeRecord format

def Scenario.format : List FieldFormat :=
  [assumed "disabled" (.bool false), assumed "running" (.list []),
   (assumed "services" (.list [])).inside (completeItems Service.completed),
   (assumed "components" (.list [])).inside (completeItems Component.completed),
   (assumed "config" Settings.empty.encode).inside Settings.completed,
   (assumed "layers" (.list [])).inside (completeItems Layer.completed),
   (assumed "triggers" (.list [])).inside (completeItems Trigger.completed),
   (assumed "solver" SolverOptions.standard.encode).inside SolverOptions.completed]

/-- The document with every field that it leaves open, at every depth, filled with what is assumed of it. -/
def Scenario.completed : Value → Value := completeRecord format

/-! ## Completion changes nothing for the reader -/

theorem Dependency.decode?_completed (v : Value) : decode? (completed v) = decode? v := by
  have hnames : (format.map FieldFormat.name).Nodup := by decide
  refine bind_fields?_completeRecord rfl hnames (fun given => ?_) v
  refine bind_required text? hnames 0 rfl rfl (fun _ => rfl) fun service => ?_
  refine bind_optional Severity.decode? hnames 1 rfl rfl rfl (fun _ => rfl) fun level => ?_
  rfl

theorem Component.decode?_completed (v : Value) : decode? (completed v) = decode? v := by
  have hnames : (format.map FieldFormat.name).Nodup := by decide
  refine bind_fields?_completeRecord rfl hnames (fun given => ?_) v
  refine bind_required text? hnames 0 rfl rfl (fun _ => rfl) fun id => ?_
  refine bind_optional text? hnames 1 rfl rfl rfl (fun _ => rfl) fun version => ?_
  refine bind_optional (nullable? text?) hnames 2 rfl rfl rfl (fun _ => rfl) fun implements => ?_
  have hitems := listOf?_completeItems Dependency.decode?_completed
  refine bind_optional (listOf? Dependency.decode?) hnames 3 rfl rfl rfl hitems fun dependencies => ?_
  refine bind_optional (nullable? text?) hnames 4 rfl rfl rfl (fun _ => rfl) fun error => ?_
  rfl

theorem Service.decode?_completed (v : Value) : decode? (completed v) = decode? v := by
  have hnames : (format.map FieldFormat.name).Nodup := by decide
  refine bind_fields?_completeRecord rfl hnames (fun given => ?_) v
  refine bind_required text? hnames 0 rfl rfl (fun _ => rfl) fun id => ?_
  refine bind_optional bool? hnames 1 rfl rfl rfl (fun _ => rfl) fun isExternal => ?_
  refine bind_optional (nullable? text?) hnames 2 rfl rfl rfl (fun _ => rfl) fun error => ?_
  rfl

/-- The two fields of a table may stand anywhere in a format, one after the other. -/
theorem Table.ofFields?_completeFields {format : List FieldFormat} (hnames : (format.map FieldFormat.name).Nodup)
    (i : Nat) (hcomponents : format[i]? = some (assumed "components" (.record [])))
    (hservices : format[i + 1]? = some (assumed "services" (.record []))) (given : List (String × Value)) :
    ofFields? (completeFields format given) = ofFields? given := by
  refine bind_optional (IdMap.decode? Severity.decode?) hnames i hcomponents rfl rfl (fun _ => rfl)
    fun components => ?_
  refine bind_optional (IdMap.decode? Severity.decode?) hnames (i + 1) hservices rfl rfl (fun _ => rfl)
    fun services => ?_
  rfl

theorem Table.decode?_completed (v : Value) : decode? (completed v) = decode? v := by
  have hnames : (format.map FieldFormat.name).Nodup := by decide
  exact bind_fields?_completeRecord rfl hnames (ofFields?_completeFields hnames 0 rfl rfl) v

theorem Layer.decode?_completed (v : Value) : decode? (completed v) = decode? v := by
  have hnames : (format.map FieldFormat.name).Nodup := by decide
  refine bind_fields?_completeRecord rfl hnames (fun given => ?_) v
  refine bind_required text? hnames 0 rfl rfl (fun _ => rfl) fun name => ?_
  rw [Table.ofFields?_completeFields hnames 1 rfl rfl]

theorem Settings.decode?_completed (v : Value) : decode? (completed v) = decode? v := by
  have hnames : (format.map FieldFormat.name).Nodup := by decide
  refine bind_fields?_completeRecord rfl hnames (fun given => ?_) v
  refine bind_optional Table.decode? hnames 0 rfl rfl rfl Table.decode?_completed fun system => ?_
  refine bind_optional Table.decode? hnames 1 rfl rfl rfl Table.decode?_completed fun user => ?_
  refine bind_optional Table.decode? hnames 2 rfl rfl rfl Table.decode?_completed fun session => ?_
  rfl

theorem SolverOptions.decode?_completed (v : Value) : decode? (completed v) = decode? v := by
  have hnames : (format.map FieldFormat.name).Nodup := by decide
  refine bind_fields?_completeRecord rfl hnames (fun given => ?_) v
  refine bind_optional word64? hnames 0 rfl rfl (word64?_int 20) (fun _ => rfl) fun maxFree => ?_
  refine bind_optional word64? hnames 1 rfl rfl (word64?_int 14) (fun _ => rfl) fun splitFrom => ?_
  rfl

theorem Trigger.decode?_completed (v : Value) : decode? (completed v) = decode? v := by
  have hnames : (format.map FieldFormat.name).Nodup := by decide
  refine bind_fields?_completeRecord rfl hnames (fun given => ?_) v
  refine bind_required text? hnames 0 rfl rfl (fun _ => rfl) fun component => ?_
  refine bind_required Layer.decode? hnames 1 rfl rfl Layer.decode?_completed fun layer => ?_
  rfl

theorem Scenario.decode?_completed (v : Value) : decode? (completed v) = decode? v := by
  have hnames : (format.map FieldFormat.name).Nodup := by decide
  have hservices := listOf?_completeItems Service.decode?_completed
  have hcomponents := listOf?_completeItems Component.decode?_completed
  have hsettings := Settings.empty.decode?_encode
  have hlayers := listOf?_completeItems Layer.decode?_completed
  have htriggers := listOf?_completeItems Trigger.decode?_completed
  have hoptions := SolverOptions.standard.decode?_encode
  refine bind_fields?_completeRecord rfl hnames (fun given => ?_) v
  refine bind_optional bool? hnames 0 rfl rfl rfl (fun _ => rfl) fun disabled => ?_
  refine bind_optional (listOf? text?) hnames 1 rfl rfl rfl (fun _ => rfl) fun running => ?_
  refine bind_optional (listOf? Service.decode?) hnames 2 rfl rfl rfl hservices fun services => ?_
  refine bind_optional (listOf? Component.decode?) hnames 3 rfl rfl rfl hcomponents fun components => ?_
  refine bind_optional Settings.decode? hnames 4 rfl rfl hsettings Settings.decode?_completed fun settings => ?_
  refine bind_optional (listOf? Layer.decode?) hnames 5 rfl rfl rfl hlayers fun layers => ?_
  refine bind_optional (listOf? Trigger.decode?) hnames 6 rfl rfl rfl htriggers fun triggers => ?_
  refine bind_optional SolverOptions.decode? hnames 7 rfl rfl hoptions SolverOptions.decode?_completed fun options => ?_
  rfl

/-! ## What is written is complete -/

theorem completeRecord_of_given {format : List FieldFormat} {members : List (String × Value)}
    (hmembers : members.map Prod.fst = format.map FieldFormat.name) (hnames : (format.map FieldFormat.name).Nodup)
    (hcomplete : completeFields format members = members) :
    completeRecord format (.record members) = .record members := by
  rw [completeRecord, fields?_record hmembers hnames, Option.map_some, Option.getD_some, hcomplete]

theorem completeItems_map {α : Type} {complete : Value → Value} {write : α → Value}
    (h : ∀ x, complete (write x) = write x) (l : List α) :
    completeItems complete (.list (l.map write)) = .list (l.map write) := by
  have hwritten : complete ∘ write = write := funext h
  rw [completeItems, List.map_map, hwritten]

theorem Dependency.completed_encode (d : Dependency) : completed d.encode = d.encode := by
  refine completeRecord_of_given rfl (by decide) ?_
  simp [completeFields, format, value?, needed, assumed, lookup_cons_ite]

theorem Component.completed_encode (c : Component) : completed c.encode = c.encode := by
  refine completeRecord_of_given rfl (by decide) ?_
  simp [completeFields, format, value?, needed, assumed, inside, lookup_cons_ite,
    completeItems_map Dependency.completed_encode]

theorem Service.completed_encode (s : Service) : completed s.encode = s.encode := by
  refine completeRecord_of_given rfl (by decide) ?_
  simp [completeFields, format, value?, needed, assumed, lookup_cons_ite]

theorem Table.completed_encode (t : Table Severity) : completed t.encode = t.encode := by
  refine completeRecord_of_given rfl (by decide) ?_
  simp [completeFields, format, value?, assumed, encodeFields, lookup_cons_ite]

theorem Layer.completed_encode (l : Layer) : completed l.encode = l.encode := by
  refine completeRecord_of_given rfl (by decide) ?_
  simp [completeFields, format, value?, needed, assumed, Table.encodeFields, lookup_cons_ite]

theorem Settings.completed_encode (s : Settings) : completed s.encode = s.encode := by
  refine completeRecord_of_given rfl (by decide) ?_
  simp [completeFields, format, value?, assumed, inside, lookup_cons_ite, Table.completed_encode]

theorem SolverOptions.completed_encode (o : SolverOptions) : completed o.encode = o.encode := by
  refine completeRecord_of_given rfl (by decide) ?_
  simp [completeFields, format, value?, assumed, lookup_cons_ite]

theorem Trigger.completed_encode (t : Trigger) : completed t.encode = t.encode := by
  refine completeRecord_of_given rfl (by decide) ?_
  simp [completeFields, format, value?, needed, inside, lookup_cons_ite, Layer.completed_encode]

theorem Scenario.completed_encode (s : Scenario) : completed s.encode = s.encode := by
  refine completeRecord_of_given rfl (by decide) ?_
  simp [completeFields, format, value?, assumed, inside, lookup_cons_ite, completeItems_map Service.completed_encode,
    completeItems_map Component.completed_encode, completeItems_map Layer.completed_encode,
    completeItems_map Trigger.completed_encode, Settings.completed_encode, SolverOptions.completed_encode]

/-! ## Documents -/

/-- Scenarios and plans are restored from what is written of them, a plan with a cost that fits its field. So to read a
document, to write what was read and to read that again gives the first reading once more; that reading is the one of
the document with all its gaps filled, and what is written has no gaps. -/
theorem Encoding.documents_restored :
    (∀ s : Scenario, Scenario.decode? s.encode = some s) ∧
      (∀ p : Plan, (∀ steps, p = .ready steps → steps.cost < UInt32.size) → Plan.decode? p.encode = some p) ∧
      ∀ v s, Scenario.decode? v = some s → Scenario.decode? s.encode = Scenario.decode? v ∧
        Scenario.decode? (Scenario.completed v) = some s ∧ Scenario.completed s.encode = s.encode := by
  refine ⟨Scenario.decode?_encode, Plan.decode?_encode, fun v s h => ⟨?_, ?_, s.completed_encode⟩⟩
  · rw [s.decode?_encode, h]
  · rw [Scenario.decode?_completed, h]

namespace Scenario

/-- A document that leaves open what it may, gives one severity twice and has a field that nobody asks for. -/
def sparse : Value :=
  .record
    [("components", .list
       [.record [("id", .text "camera"), ("dependencies", .list [.record [("service", .text "mount")]])]]),
     ("remark", .text "nobody reads this"),
     ("config", .record
       [("user", .record [("components", .record [("camera", .text "present"), ("camera", .text "mandatory")])])]),
     ("triggers", .list [.record [("component", .text "camera"), ("layer", .record [("name", .text "")])]])]

def filled : Scenario :=
  { disabled := false
    running := []
    services := []
    components := [⟨"camera", "", none, [⟨"mount", .passive⟩], none⟩]
    settings := { Settings.empty with user := Table.empty.insert (.component "camera") .mandatory }
    layers := []
    triggers := [⟨"camera", ⟨"", .empty⟩⟩]
    options := ⟨20, 14⟩ }

end Scenario

/-- Steps that no solver would give: the sets overlap and the cost is the highest there is. -/
def Steps.overlapping : Steps := ⟨.ofList ["camera", "dome"], .ofList ["camera"], .ofList ["", "camera"], 4294967295⟩

theorem Encoding.documents_restored_sparse :
    (Scenario.decode? Scenario.sparse = some .filled ∧
      Scenario.decode? Scenario.filled.encode = Scenario.decode? Scenario.sparse ∧
      Scenario.decode? (Scenario.completed Scenario.sparse) = some .filled) ∧
      Steps.overlapping.cost < UInt32.size ∧
      Plan.decode? (Plan.ready .overlapping).encode = some (.ready .overlapping) := by
  obtain ⟨-, hplans, hdocuments⟩ := documents_restored
  have hread : Scenario.decode? Scenario.sparse = some .filled := by decide
  have hcost : Steps.overlapping.cost < UInt32.size := by decide
  obtain ⟨hagain, hcompleted, -⟩ := hdocuments _ _ hread
  refine ⟨⟨hread, hagain, hcompleted⟩, hcost, hplans _ fun steps heq => ?_⟩
  obtain rfl := Plan.ready.inj heq
  exact hcost

end Orchestrator
