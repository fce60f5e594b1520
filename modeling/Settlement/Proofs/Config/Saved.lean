import Settlement.Proofs.Json.RoundTrip
import Settlement.Proofs.Split.Table

/-! Configurations that are saved and loaded again. What loading accepts is written as a document
that it accepts again, with the same configuration, and with no more room than loading took. How
deep a field may be to be written is up to the caller. -/

namespace Settlement

open Json Json.Value

theorem Json.Value.ofNumber_ne_text (x : Number) (t : Text) : ofNumber x ≠ .text t := by
  cases x <;> nofun

/-- A ratio is the value it was read of. -/
theorem Ratio.toValue_of_ofValue {name : Text} {v : Value} {r : Ratio}
    (h : Ratio.ofValue name v = .ok r) : r.toValue = v := by
  obtain ⟨hparts, -⟩ := Ratio.ofValue_eq_ok.1 h
  obtain ⟨items, hitems, hparts⟩ := Outcome.bind_eq_ok.1 hparts
  split at hparts
  · cases hparts
    cases v with
    | list =>
      cases hitems
      rfl
    | text _ | object _ =>
      -- the parts would be characters or names
      have hmem := Except.ok.inj hitems ▸ List.mem_cons_self
      obtain ⟨_, -, htext⟩ := List.mem_map.1 hmem
      exact absurd htext.symm (ofNumber_ne_text _ _)
    | _ => cases hitems
  · cases hparts

namespace Config

/-! Loading. -/

def table (ratios : List (Text × Ratio)) : Value :=
  .object (ratios.map fun (name, r) => (name, r.toValue))

theorem table_of_ratiosOf {fields : List (Text × Value)} {ratios : List (Text × Ratio)}
    (h : ratiosOf (.object fields) = .ok ratios) : table ratios = .object fields := by
  have hentry (entry : Text × Value) (accepted : Text × Ratio)
      (h : (do return (entry.1, ← Ratio.ofValue entry.1 entry.2) : Outcome (Text × Ratio)) =
        .ok accepted) : (accepted.1, accepted.2.toValue) = id entry := by
    obtain ⟨r, hr, h⟩ := Outcome.bind_eq_ok.1 h
    cases h
    rw [Ratio.toValue_of_ofValue hr]
    rfl
  have hmap := Outcome.map_of_mapM_ok hentry h
  rw [List.map_id] at hmap
  exact congrArg Value.object hmap

theorem ratiosOf_table {v : Value} {ratios : List (Text × Ratio)} (h : ratiosOf v = .ok ratios) :
    ratiosOf (table ratios) = .ok ratios := by
  cases v with
  | null =>
    cases h
    rfl
  | object fields => rwa [table_of_ratiosOf h]
  | _ => cases h

theorem ofValue_toValue_eq (c : Config) :
    ofValue c.toValue = (ratiosOf (table c.ratios)).map fun ratios => { c with ratios } :=
  rfl

/-- The configuration of the fields of the sections. -/
def ofSections (ratios : List (Text × Ratio)) (program gates budgets monitoring : Fields) :
    Config where
  programId := valueOr "program_id" standard.programId program
  tokenProgramId := valueOr "token_program_id" standard.tokenProgramId program
  compressedTokenProgramId :=
    valueOr "compressed_token_program_id" standard.compressedTokenProgramId program
  systemProgramId := valueOr "system_program_id" standard.systemProgramId program
  ratios := ratios
  pauseGatesDirectBurn := valueOr "pause_gates_direct_burn" standard.pauseGatesDirectBurn gates
  splitTransferBudget := valueOr "split_transfer" standard.splitTransferBudget budgets
  burnTokensBudget := valueOr "burn_tokens" standard.burnTokensBudget budgets
  burnFromCompanyBudget := valueOr "burn_from_company" standard.burnFromCompanyBudget budgets
  metricsHost := valueOr "host" standard.metricsHost monitoring
  metricsPort := valueOr "port" standard.metricsPort monitoring

theorem ofValue_eq_ok {document : Value} {c : Config} (h : ofValue document = .ok c) :
    ∃ fields program split ratios gates budgets monitoring, document = .object fields ∧
      sectionFields "program" programNames fields = .ok program ∧
      sectionFields "split" ["ratios"] fields = .ok split ∧
      ratiosOf (valueOr "ratios" .null split) = .ok ratios ∧
      sectionFields "gates" ["pause_gates_direct_burn"] fields = .ok gates ∧
      sectionFields "budgets" budgetNames fields = .ok budgets ∧
      sectionFields "monitoring" ["host", "port"] fields = .ok monitoring ∧
      c = ofSections ratios program gates budgets monitoring := by
  cases document with
  | object fields =>
    obtain ⟨program, hprogram, h⟩ := Outcome.bind_eq_ok.1 h
    obtain ⟨split, hsplit, h⟩ := Outcome.bind_eq_ok.1 h
    obtain ⟨ratios, hratios, h⟩ := Outcome.bind_eq_ok.1 h
    obtain ⟨gates, hgates, h⟩ := Outcome.bind_eq_ok.1 h
    obtain ⟨budgets, hbudgets, h⟩ := Outcome.bind_eq_ok.1 h
    obtain ⟨monitoring, hmonitoring, h⟩ := Outcome.bind_eq_ok.1 h
    cases h
    exact ⟨fields, program, split, ratios, gates, budgets, monitoring, rfl, hprogram, hsplit,
      hratios, hgates, hbudgets, hmonitoring, rfl⟩
  | _ => cases h

/-- What is accepted once is accepted again, as the same configuration. -/
theorem ofValue_toValue {document : Value} {c : Config} (h : ofValue document = .ok c) :
    ofValue c.toValue = .ok c := by
  obtain ⟨_, _, _, ratios, _, _, _, -, -, -, hratios, -, -, -, rfl⟩ := ofValue_eq_ok h
  rw [ofValue_toValue_eq]
  dsimp only [ofSections]
  rw [ratiosOf_table hratios]
  rfl

/-! Writing. -/

variable {room : Nat}

theorem within_zip {names : List String} {values : List Value} (hnodup : names.Nodup)
    (hlength : names.length = values.length) (hvalues : ∀ v ∈ values, v.Within Legible room) :
    (object ((names.map Text.of).zip values)).Within Legible (room + 1) := by
  have hmap : ((names.map Text.of).zip values).map Prod.fst = names.map Text.of :=
    List.map_fst_zip (by rw [List.length_map, hlength])
  refine within_object.2 ⟨⟨⟨fun f hf => ?_, ?_⟩, rfl⟩, fun f hf => ?_⟩
  · have hname : f.1 ∈ names.map Text.of := hmap ▸ List.mem_map_of_mem hf
    obtain ⟨name, -, hname⟩ := List.mem_map.1 hname
    exact hname ▸ joined_ofChars _
  · rw [hmap]
    exact List.pairwise_map.2 (hnodup.imp fun hne heq => hne (Text.of_inj heq))
  · exact hvalues _ (List.of_mem_zip hf).2

theorem within_ofString (s : String) : (Value.ofString s).Within Legible room :=
  (within_atom rfl).2 ⟨joined_ofChars _, rfl⟩

theorem within_ofHex (bs : Bytes) : (Value.ofHex bs).Within Legible room :=
  (within_atom rfl).2 ⟨joined_ofChars _, rfl⟩

theorem within_null : Value.null.Within Legible room := (within_atom rfl).2 ⟨trivial, rfl⟩

theorem within_bool (b : Bool) : (Value.bool b).Within Legible room :=
  (within_atom rfl).2 ⟨trivial, rfl⟩

theorem within_int {n : Int} (h : n.natAbs < 10 ^ 5) : (Value.int n).Within Legible room :=
  (within_atom rfl).2 ⟨Nat.lt_of_lt_of_le h (Nat.pow_le_pow_right (by omega) (by decide)), rfl⟩

theorem section_within {name : String} {names : List String}
    {document fields : List (Text × Value)} (h : (object document).Within Legible (room + 2))
    (hfields : sectionFields name names document = .ok fields) :
    (object fields).Within Legible (room + 1) := by
  simp only [sectionFields] at hfields
  split at hfields
  · cases hfields
    exact within_object.2 ⟨⟨⟨nofun, List.nodup_nil⟩, rfl⟩, nofun⟩
  · next fields' hsection =>
    obtain ⟨_, -, hfields⟩ := Outcome.bind_eq_ok.1 hfields
    cases hfields
    exact (within_object.1 h).2 _ (mem_of_field? hsection)
  · cases hfields

theorem valueOr_within {name : String} {default : Value} {fields : List (Text × Value)}
    (h : (object fields).Within Legible (room + 1)) (hdefault : default.Within Legible room) :
    (valueOr name default fields).Within Legible room := by
  rw [valueOr]
  cases hfield : field? (Text.of name) fields with
  | none => exact hdefault
  | some v => exact (within_object.1 h).2 _ (mem_of_field? hfield)

theorem table_within {v : Value} {ratios : List (Text × Ratio)} (h : v.Within Legible (room + 2))
    (hratios : ratiosOf v = .ok ratios) : (table ratios).Within Legible (room + 2) := by
  cases v with
  | null =>
    cases hratios
    have hratio : (Value.list [.int 100, .int 120]).Within Legible (room + 1) :=
      within_list.2 ⟨⟨trivial, rfl⟩, List.forall_mem_cons.2
        ⟨within_int (by decide), List.forall_mem_singleton.2 (within_int (by decide))⟩⟩
    have hzip : table standardRatios = .object ((standardTypes.map Text.of).zip
      [.list [.int 100, .int 120], .list [.int 100, .int 120]]) := rfl
    rw [hzip]
    exact within_zip (by decide) rfl (by simp [hratio])
  | object fields => rwa [table_of_ratiosOf hratios]
  | _ => cases hratios

/-- What is written of a configuration takes no more room than its document, or than the standard
ratios: they stand in the table, the section, and the whole. -/
theorem toValue_within {document : Value} {c : Config} (h : document.Within Legible (room + 4))
    (hc : ofValue document = .ok c) : c.toValue.Within Legible (room + 4) := by
  obtain ⟨fields, program, split, ratios, gates, budgets, monitoring, rfl, hprogram, hsplit,
    hratios, hgates, hbudgets, hmonitoring, rfl⟩ := ofValue_eq_ok hc
  replace hprogram := section_within h hprogram
  replace hsplit := section_within h hsplit
  replace hgates := section_within h hgates
  replace hbudgets := section_within h hbudgets
  replace hmonitoring := section_within h hmonitoring
  have htable := table_within (valueOr_within hsplit within_null) hratios
  refine within_zip (by decide) rfl ?_
  simp only [List.forall_mem_cons, List.not_mem_nil, false_implies, implies_true, and_true]
  refine ⟨within_zip (by decide) rfl ?_, within_zip (by decide) rfl ?_,
    within_zip (by decide) rfl ?_, within_zip (by decide) rfl ?_, within_zip (by decide) rfl ?_⟩
  all_goals
    simp only [List.forall_mem_cons, List.not_mem_nil, false_implies, implies_true, and_true]
  · exact ⟨valueOr_within hprogram (within_ofHex _), valueOr_within hprogram (within_ofHex _),
      valueOr_within hprogram (within_ofHex _), valueOr_within hprogram (within_ofHex _)⟩
  · exact htable
  · exact valueOr_within hgates (within_bool _)
  · exact ⟨valueOr_within hbudgets (within_int (by decide)),
      valueOr_within hbudgets (within_int (by decide)),
      valueOr_within hbudgets (within_int (by decide))⟩
  · exact ⟨valueOr_within hmonitoring (within_ofString _),
      valueOr_within hmonitoring (within_int (by decide))⟩

theorem standard_depth : standard.toValue.depth = 4 := rfl

/-- Whatever its sections and fields hold, a document without floats that is loaded is saved if the
caller has room to write it. And whatever is saved is loaded again as the same configuration, which
is then saved as the same text, by everyone with as much room to read as the first time, and enough
for the standard configuration. -/
theorem saved_reloads {again : Nat} {writable : Value → Bool} {text : List Char} {document : Value}
    {c : Config} (htext : readWithin room text = .ok document) (hfloatless : document.Floatless)
    (hc : read room text = .ok c) (hroom : room ≤ again)
    (hstandard : standard.toValue.depth ≤ again) :
    (writable c.toValue = true → ∃ file, c.save writable = .ok file) ∧
      ∀ file, c.save writable = .ok file → read again file = .ok c := by
  have hvalue : ofValue document = .ok c := by
    rwa [read, htext] at hc
  refine ⟨fun hwritable => ⟨c.write, if_pos hwritable⟩, fun file hfile => ?_⟩
  have hdocument : document.Within Legible again :=
    ((within_of_readWithin htext).legible hfloatless).mono hroom
  rw [standard_depth] at hstandard
  obtain ⟨spare, rfl⟩ := Nat.exists_eq_add_of_le' hstandard
  have hwritten : readWithin (spare + 4) c.write = .ok c.toValue :=
    readWithin_render (toValue_within hdocument hvalue) (some 0)
  rw [save] at hfile
  split at hfile
  · cases hfile
    rw [read, hwritten]
    exact ofValue_toValue hvalue
  · cases hfile

/-! A document with some of the sections, where the names of ratios have quotation marks and lone
surrogates, and documents of any depth. -/

namespace Sample

def quoted : Text := Text.of "say \"ok\" \\ é😀"

def lone : Text := [⟨0xde00, by decide⟩, ⟨0xd83d, by decide⟩]

def document : Value :=
  .object [(Text.of "split", .object [(Text.of "ratios", .object
      [(quoted, .list [.bool true, .int 3]), (lone, .list [.int 0, .int 7])])]),
    (Text.of "gates", .object [(Text.of "pause_gates_direct_burn", .null)]),
    (Text.of "budgets", .object [(Text.of "burn_tokens", .list [.int (-12), .text []])]),
    (Text.of "unknown", .int 5)]

def config : Config :=
  { standard with
    ratios := [(quoted, ⟨.flag true, .int 3⟩), (lone, ⟨.int 0, .int 7⟩)]
    pauseGatesDirectBurn := .null
    burnTokensBudget := .list [.int (-12), .text []] }

def shallow (v : Value) : Bool := v.depth ≤ 4

theorem document_read : readWithin 4 (compact document) = .ok document ∧ document.Floatless ∧
    shallow config.toValue = true := by
  decide +kernel

theorem config_loaded : read 4 (compact document) = .ok config := by
  rw [read, document_read.1]
  rfl

def tower : Nat → Value
  | 0 => .list []
  | n + 1 => .list [tower n]

theorem tower_within (n : Nat) : (tower n).Within Legible (n + 1) := by
  induction n with
  | zero => exact within_list.2 ⟨⟨trivial, rfl⟩, nofun⟩
  | succ n ih => exact within_list.2 ⟨⟨trivial, rfl⟩, List.forall_mem_singleton.2 ih⟩

theorem tower_depth (n : Nat) : (tower n).depth = n + 1 := by
  induction n with
  | zero => rfl
  | succ n ih => simp only [tower, depth, depthItems, ih, Nat.max_zero]

def hosting (n : Nat) : Value :=
  .object [(Text.of "monitoring", .object [(Text.of "host", tower n)])]

def hosted (n : Nat) : Config := { standard with metricsHost := tower n }

theorem hosting_within (n : Nat) : (hosting n).Within Legible (n + 3) := by
  have hsection : (object ((["host"].map Text.of).zip [tower n])).Within Legible (n + 2) :=
    within_zip (by decide) rfl (List.forall_mem_singleton.2 (tower_within n))
  have hdocument : (object ((["monitoring"].map Text.of).zip
      [object ((["host"].map Text.of).zip [tower n])])).Within Legible (n + 3) :=
    within_zip (by decide) rfl (List.forall_mem_singleton.2 hsection)
  exact hdocument

theorem hosting_read {n : Nat} (h : n + 3 ≤ room) :
    readWithin room (compact (hosting n)) = .ok (hosting n) :=
  readWithin_render ((hosting_within n).mono h) none

theorem hosting_floatless (n : Nat) : (hosting n).Floatless :=
  fun w hw => ((hosting_within n).every w hw).2

theorem hosted_loaded {n : Nat} (h : n + 3 ≤ room) :
    read room (compact (hosting n)) = .ok (hosted n) := by
  rw [read, hosting_read h]
  rfl

theorem hosted_depth (n : Nat) : n + 3 ≤ (hosted n).toValue.depth := by
  simp [hosted, toValue, depth, depthFields, tower_depth, programNames, budgetNames]

end Sample

theorem sample_saved :
    (readWithin 4 (compact Sample.document) = .ok Sample.document ∧ Sample.document.Floatless ∧
      read 4 (compact Sample.document) = .ok Sample.config ∧ standard.toValue.depth ≤ 4) ∧
    ∃ file, Sample.config.save Sample.shallow = .ok file ∧ read 4 file = .ok Sample.config := by
  obtain ⟨hread, hfloatless, hwritable⟩ := Sample.document_read
  have hstandard : standard.toValue.depth ≤ 4 := Nat.le_of_eq standard_depth
  obtain ⟨hsaved, hreloaded⟩ :=
    saved_reloads hread hfloatless Sample.config_loaded (Nat.le_refl 4) hstandard
  obtain ⟨file, hfile⟩ := hsaved hwritable
  exact ⟨⟨hread, hfloatless, Sample.config_loaded, hstandard⟩, file, hfile, hreloaded file hfile⟩

/-- Not all that is loaded is saved, wherever there is room to read deeper documents than can be
written. -/
theorem deep_not_saved : ¬ ∃ (room limit : Nat) (writable : Value → Bool),
    limit < room ∧ standard.toValue.depth ≤ room ∧ (∀ v, writable v = true → v.depth ≤ limit) ∧
      ∀ (text : List Char) (document : Value) (c : Config),
        readWithin room text = .ok document → document.Floatless → read room text = .ok c →
          ∃ file, c.save writable = .ok file ∧ read room file = .ok c := by
  rintro ⟨room, limit, writable, hlimit, hstandard, hbound, h⟩
  rw [standard_depth] at hstandard
  have hroom : limit - 2 + 3 ≤ room := by omega
  obtain ⟨file, hfile, -⟩ := h _ _ _ (Sample.hosting_read hroom)
    (Sample.hosting_floatless (limit - 2)) (Sample.hosted_loaded hroom)
  have hdeep := Sample.hosted_depth (limit - 2)
  have hunwritable : writable (Sample.hosted (limit - 2)).toValue ≠ true := by
    intro hwritable
    have hshallow := hbound _ hwritable
    omega
  rw [save, if_neg hunwritable] at hfile
  cases hfile

end Config
end Settlement
