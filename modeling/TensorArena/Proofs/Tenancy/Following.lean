import TensorArena.Proofs.Reference.Reached
import TensorArena.Proofs.Tenancy.Apart
import TensorArena.Proofs.Tenancy.Lifecycle
import TensorArena.Proofs.Tenancy.Ready

/-!
# Tenants follow the reference

However the actions of tenants and of the holder of a store are interleaved, the arena of a tenant
holds what its successful invocations lead to. Other tenants and the holder change none of it, for it
lies in blocks of the tail that the tenant owns; the tenant itself changes the tensors that it writes,
and its invocations do what the reference does. `successes` counts those that succeed.
-/

namespace TensorArena

variable {σ π : Type}

theorem Graph.NumbersScratch.congr {g : Graph} {m m' : Memory} (h : g.NumbersScratch m)
    (hsize : m'.size = m.size) : g.NumbersScratch m' := by
  unfold NumbersScratch
  rw [hsize]
  exact h

namespace Interpreter

variable {i : Interpreter σ π} {tables : Tables} {a : Allotment} {meanings : List Meaning}
  {written : Nat → Prop} {runs : Nat} {s s' : Site σ π} {own : Block → Prop}

theorem bindable (hmade : i.Made) {m : Memory} (h : i.Lodged tables a m)
    (hnumber : i.graph.NumbersScratch m) : a.Bindable i.graph.toGraph m :=
  ⟨h.fits.scratch_numbered h.start_le hnumber, h.start_le, hmade.inputs, hmade.outputs⟩

/-- Other bytes for a tensor change no other variable and no persistent data. -/
theorem Reaches.overwrite (h : i.Reaches tables a meanings written runs s.memory) {id : Nat}
    (hid : written id) (bytes : Bytes) :
    i.Reaches tables a meanings written runs (i.overwrite s id bytes).memory := by
  unfold Interpreter.overwrite
  split
  · exact h
  · rename_i handle hhandle
    split
    · rename_i hlen
      have hw := h.toLodged.put_wrote hhandle hlen
      obtain ⟨t, span, hs, hspan, rfl⟩ := h.toLodged.writableTensor hhandle
      obtain ⟨_, heq, -, -, -, hlies, hstop⟩ := h.fits.stored hs
      cases hspan.symm.trans heq
      have hcovers : ∀ x, (ByteRange.mk span.range.offset bytes.length).Covers x →
          span.range.Covers x := by
        rw [hlen]
        simp only [Memory.piece, s.memory.length_read_of_le (Nat.le_trans hstop h.start_le)]
        exact fun _ hx => hx
      refine ⟨h.toLodged.wrote hw rfl h.tables_eq, h.prepared,
        h.reached.change (Allotment.stores_kept h.fits ?vars ?data)⟩
      case vars =>
        intro id' t' ht' hkind hnot
        obtain ⟨span', hspan', -⟩ := h.fits.stored ⟨ht', .inl hkind⟩
        have hapart : span.range.Apart span'.range := by
          refine h.fits.stored_apart hs ⟨ht', .inl hkind⟩ ?_ ?_ hspan hspan'
          · rintro rfl
            exact hnot hid
          · intro l l' _ hl'
            have hactivation := hl'.kind_eq ht'
            rw [hkind] at hactivation
            cases hactivation
        rw [Allotment.rangeOf_eq hspan', Site.put, Site.memory_mapMemory]
        exact Memory.agreeOn_write _ hcovers hapart
      case data =>
        intro k grant hg
        have hapart := ((h.fits.userRange hg).2.1.apart hlies h.fits.falling.tensors).symm
        rw [Site.put, Site.memory_mapMemory]
        exact Memory.agreeOn_write _ hcovers hapart
    · exact h

/-! ## Where an interpreter stands -/

/-- Before it is allocated an interpreter has not run; while it is allocated it reaches so many runs,
in blocks of its own. -/
structure Position (i : Interpreter σ π) (meanings : List Meaning) (written : Nat → Prop)
    (runs : Nat) (s : Site σ π) (own : Block → Prop) : Prop where
  created : i.state = .created → runs = 0
  allocated : ∀ tables, i.state = .allocated tables → ∃ a,
    i.Reaches tables a meanings written runs s.memory ∧ ∀ b ∈ a.blocks, own b

theorem Position.mono {own' : Block → Prop} {written' : Nat → Prop}
    (h : i.Position meanings written runs s own) (hown : ∀ b, own b → own' b)
    (hw : ∀ id, written id → written' id) : i.Position meanings written' runs s own' where
  created := h.created
  allocated tables hstate := by
    obtain ⟨a, hr, hblocks⟩ := h.allocated tables hstate
    exact ⟨a, ⟨hr.toLodged, hr.prepared, hr.reached.mono hw⟩, fun b hb => hown b (hblocks b hb)⟩

/-- A step that leaves the arena alone, and of the interpreter what it runs. -/
theorem Position.quiet {i' : Interpreter σ π} (h : i.Position meanings written runs s own)
    (hq : s.Quiet s') (hgraph : i'.graph = i.graph) (hkernels : i'.kernels = i.kernels)
    (hstate : i'.state = i.state) : i'.Position meanings written runs s' own := by
  refine ⟨fun hcreated => h.created (hstate ▸ hcreated), fun tables htables => ?_⟩
  obtain ⟨a, hr, hblocks⟩ := h.allocated tables (hstate ▸ htables)
  have hlodged : i'.Lodged tables a s'.memory :=
    hr.toLodged.wrote (.of_quiet hq) hgraph (by rw [htables, Lifecycle.tables?_allocated])
  refine ⟨a, ⟨hlodged, ?_, ?_⟩, hblocks⟩
  · rw [hgraph, hkernels]
    exact hr.prepared
  · rw [hgraph, hq.memory_eq]
    exact hr.reached

theorem setContext_quiet (i : Interpreter σ π) (value : Int) (s : Site σ π) :
    s.Quiet (i.setContext value s).2.2 ∧ (i.setContext value s).2.1.graph = i.graph ∧
      (i.setContext value s).2.1.kernels = i.kernels := by
  unfold setContext
  split
  · exact ⟨.refl s, rfl, rfl⟩
  · exact ⟨.note .., rfl, rfl⟩

/-- A call to allocate an interpreter changes its state only. -/
theorem allocate_eq_state (i : Interpreter σ π) (s : Site σ π) :
    (i.allocate s).2.1 = { i with state := (i.allocate s).2.1.state } := by
  unfold Interpreter.allocate
  split
  · rfl
  · rfl
  · split
    · rfl
    · split
      · rfl
      · rfl

theorem graph_allocate (i : Interpreter σ π) (s : Site σ π) :
    (i.allocate s).2.1.graph = i.graph := by
  rw [allocate_eq_state]

theorem kernels_allocate (i : Interpreter σ π) (s : Site σ π) :
    (i.allocate s).2.1.kernels = i.kernels := by
  rw [allocate_eq_state]

theorem same_runOnce (i : Interpreter σ π) (tables : Tables) (s : Site σ π) :
    (i.runOnce tables s).2.1.graph = i.graph ∧ (i.runOnce tables s).2.1.kernels = i.kernels := by
  unfold Interpreter.runOnce
  split
  · exact ⟨rfl, rfl⟩
  · split
    · exact ⟨rfl, rfl⟩
    · exact ⟨rfl, rfl⟩

theorem same_invoke (i : Interpreter σ π) (s : Site σ π) :
    (i.invoke s).2.1.graph = i.graph ∧ (i.invoke s).2.1.kernels = i.kernels := by
  have hsame : (i.allocate s).2.1.graph = i.graph ∧ (i.allocate s).2.1.kernels = i.kernels :=
    ⟨i.graph_allocate s, i.kernels_allocate s⟩
  unfold Interpreter.invoke
  split
  · exact ⟨rfl, rfl⟩
  · exact i.same_runOnce _ s
  · split
    · rename_i hcall
      rw [hcall] at hsame
      exact hsame
    · rename_i i' s' hcall
      rw [hcall] at hsame
      split
      · rw [(i'.same_runOnce _ s').1, (i'.same_runOnce _ s').2]
        exact hsame
      · exact hsame

theorem made_allocate (i : Interpreter σ π) (s : Site σ π) (hmade : i.Made) :
    (i.allocate s).2.1.Made := by
  rw [allocate_eq_state]
  exact ⟨hmade.kernels_length, hmade.inputs, hmade.outputs⟩

theorem size_allocate (i : Interpreter σ π) (hs : s.Sound) (hmade : i.Made)
    (hstrategy : i.strategy.Sound) : (i.allocate s).2.2.memory.size = s.memory.size := by
  have hcall := i.allocating hs hmade.kernels_length hstrategy
  generalize (i.allocate s).1 = answer, (i.allocate s).2.1 = i', (i.allocate s).2.2 = s' at hcall
  cases hcall with
  | stayed => rfl
  | done _ _ hc hq => rw [hq.memory_eq, hc.since.size_eq]
  | failed _ hsince => exact hsince.size_eq

theorem Position.allocate (h : i.Position meanings written runs s own) (hs : s.Sound)
    (hmade : i.Made) (hstrategy : i.strategy.Sound)
    (hcomputed : i.graph.toGraph.Computed i.kernels meanings) :
    (i.allocate s).2.1.Position meanings written runs (i.allocate s).2.2
      (fun b => own b ∨ b ∈ s.fresh (i.allocate s).2.2) := by
  have hcall := i.allocating hs hmade.kernels_length hstrategy
  generalize (i.allocate s).1 = answer, (i.allocate s).2.1 = i', (i.allocate s).2.2 = s' at hcall
  cases hcall with
  | stayed => exact h.mono (fun _ => .inl) fun _ => id
  | done hstate hhold hc hq =>
    obtain rfl := h.created hstate
    refine ⟨nofun, fun tables' htables => ?_⟩
    cases htables
    refine ⟨_, reaches_of_committed hs hc hq hcomputed, fun b hb => .inr ?_⟩
    rw [hc.blocks_eq, Site.fresh_congr hq.granted_eq.symm] at hb
    exact hb
  | failed => exact ⟨nofun, nofun⟩

/-- An interpreter that is allocated: an invocation that succeeds is a run of the reference, and any
invocation leaves the interpreter where it stands then. -/
theorem Position.invoke_allocated (h : i.Position meanings written runs s own)
    (hstate : i.state = .allocated tables) (hmade : i.Made)
    (hnumber : i.graph.NumbersScratch s.memory)
    (hcomputed : i.graph.toGraph.Computed i.kernels meanings) :
    ((i.invoke s).1 = .ok () → (i.invoke s).2.1 = i ∧ ∃ a,
        i.Reaches tables a meanings written runs s.memory ∧
          i.RanOnce tables a meanings s (i.invoke s).2.2) ∧
      (i.invoke s).2.1.Position meanings written (if (i.invoke s).1.isOk then runs + 1 else runs)
        (i.invoke s).2.2 own := by
  obtain ⟨a, hr, hblocks⟩ := h.allocated tables hstate
  have hb := bindable hmade hr.toLodged hnumber
  rw [invoke_of_allocated hstate]
  rcases hr.runOnce hstate hb hcomputed with hbusy | ⟨s', hran⟩ | ⟨hanswer, hfailed⟩
  · rw [hbusy]
    exact ⟨nofun, h⟩
  · rw [hran.run_eq]
    refine ⟨fun _ => ⟨rfl, a, hr, hran⟩, ?_, fun tables' htables => ⟨a, ?_, hblocks⟩⟩
    · rw [hstate]
      nofun
    · cases hstate.symm.trans htables
      exact hr.ran hran
  · refine ⟨fun hok => absurd hok hanswer, ?_, ?_⟩
    · rw [hfailed]
      nofun
    · rw [hfailed]
      nofun

/-- An invocation that succeeds is a run of the reference from where the interpreter is allocated, and
any invocation leaves the interpreter where it stands then. -/
theorem Position.invoke (h : i.Position meanings written runs s own) (hs : s.Sound)
    (hmade : i.Made) (hstrategy : i.strategy.Sound) (hnumber : i.graph.NumbersScratch s.memory)
    (hcomputed : i.graph.toGraph.Computed i.kernels meanings) :
    ((i.invoke s).1 = .ok () → (i.invoke s).2.1 = (i.allocate s).2.1 ∧ ∃ tables a,
        (i.allocate s).2.1.state = .allocated tables ∧
        (i.allocate s).2.1.Reaches tables a meanings written runs (i.allocate s).2.2.memory ∧
        (i.allocate s).2.1.RanOnce tables a meanings (i.allocate s).2.2 (i.invoke s).2.2) ∧
      (i.invoke s).2.1.Position meanings written (if (i.invoke s).1.isOk then runs + 1 else runs)
        (i.invoke s).2.2 (fun b => own b ∨ b ∈ s.fresh (i.invoke s).2.2) := by
  cases hstate : i.state with
  | failed known =>
    rw [invoke_of_failed hstate]
    exact ⟨nofun, h.mono (fun _ => .inl) fun _ => id⟩
  | allocated tables =>
    obtain ⟨hok, hposition⟩ := h.invoke_allocated hstate hmade hnumber hcomputed
    rw [allocate_of_allocated hstate]
    refine ⟨fun hanswer => ?_, hposition.mono (fun _ => .inl) fun _ => id⟩
    obtain ⟨hsame, a, hr, hran⟩ := hok hanswer
    exact ⟨hsame, tables, a, hstate, hr, hran⟩
  | created =>
    have hstart := h.allocate hs hmade hstrategy hcomputed
    rcases i.state_of_allocate (s := s) hstate with ⟨tables, hok, hnext⟩ | ⟨e, herror, -⟩ | hheld
    · rw [invoke_of_allocate_ok hstate hok]
      have hsize := i.size_allocate hs hmade hstrategy
      have hstep := hstart.invoke_allocated hnext (i.made_allocate s hmade)
        (i.graph_allocate s ▸ hnumber.congr hsize)
        (i.graph_allocate s ▸ i.kernels_allocate s ▸ hcomputed)
      refine ⟨fun hanswer => ?_, hstep.2.mono (fun b hb => hb.imp_right fun hfresh => ?_) fun _ => id⟩
      · obtain ⟨hsame, a, hr, hran⟩ := hstep.1 hanswer
        exact ⟨hsame, tables, a, hnext, hr, hran⟩
      · obtain ⟨a, hr, -⟩ := hstart.allocated tables hnext
        rw [invoke_of_allocated hnext,
          Site.fresh_congr (runOnce_wrote hr.toLodged).1.granted_eq]
        exact hfresh
    · rw [invoke_of_allocate_error hstate herror]
      exact ⟨nofun, hstart⟩
    · rw [invoke_of_allocate_error hstate (e := .busy) (by rw [hheld])]
      exact ⟨nofun, hstart⟩

end Interpreter

namespace Tenancy

variable {t : Tenancy σ π}

/-! ## Counting successes -/

/-- Whether an action is an invocation of the tenant's interpreter that succeeds. -/
def succeeds (t : Tenancy σ π) (number : Nat) : Action σ π → Bool
  | .invoke n => n == number && ((t.tenant? n).map fun i => (i.invoke t.site).1.isOk).getD false
  | _ => false

/-- How many invocations of the tenant's interpreter succeed among the actions. -/
def successes (t : Tenancy σ π) (number : Nat) : List (Action σ π) → Nat
  | [] => 0
  | action :: rest =>
    (t.succeeds number action).toNat + (t.step action).successes number rest

theorem successes_snoc (t : Tenancy σ π) (n : Nat) (actions : List (Action σ π))
    (action : Action σ π) : t.successes n (actions ++ [action]) =
      t.successes n actions + ((t.run actions).succeeds n action).toNat := by
  induction actions generalizing t with
  | nil => simp [successes, run]
  | cons first rest ih =>
    rw [List.cons_append, successes, successes, ih, Nat.add_assoc]
    rfl

/-- Before a tenant moves in its interpreter is not invoked. -/
theorem succeeds_of_new {n : Nat} (hnew : t.tenants.length ≤ n) (action : Action σ π) :
    t.succeeds n action = false := by
  have hnone : t.tenant? n = none := by
    rw [tenant?, List.getElem?_eq_none hnew]
    rfl
  cases action with
  | invoke m =>
    by_cases hm : m = n
    · simp [succeeds, hm, hnone]
    · simp [succeeds, hm]
  | _ => rfl

theorem successes_of_new {n : Nat} {actions : List (Action σ π)}
    (hnew : (t.run actions).tenants.length ≤ n) : t.successes n actions = 0 := by
  induction actions using List.reverseRecOn with
  | nil => rfl
  | append_singleton actions action ih =>
    rw [run_snoc] at hnew
    have hbefore := Nat.le_trans (length_le_step _ action) hnew
    rw [successes_snoc, ih hbefore, succeeds_of_new hbefore]
    rfl

/-! ## What an action is to a tenant -/

/-- The interpreter of a tenant after an action: as it was if somebody else acted, or what the call of
the tenant left. -/
inductive Turn (t : Tenancy σ π) (number : Nat) (i : Interpreter σ π) :
    Action σ π → Interpreter σ π → Prop
  | other {action : Action σ π} : t.actor action ≠ .tenant number → Turn t number i action i
  | equip {strategy : SoundStrategy} {profiler : Option (Profiler π)} {profiling : Bool} :
      Turn t number i (.equip number strategy profiler profiling)
        { i with strategy := strategy.strategy, profiler, profiling }
  | setContext {value : Int} :
      Turn t number i (.setContext number value) (i.setContext value t.site).2.1
  | allocate : Turn t number i (.allocate number) (i.allocate t.site).2.1
  | write {id : Nat} {bytes : Bytes} : Turn t number i (.write number id bytes) i
  | invoke : Turn t number i (.invoke number) (i.invoke t.site).2.1

/-- An interpreter keeps its graph and its kernels. -/
theorem Turn.same {action : Action σ π} {n : Nat} {i i' : Interpreter σ π}
    (h : t.Turn n i action i') : i'.graph = i.graph ∧ i'.kernels = i.kernels := by
  cases h with
  | other | equip | write => exact ⟨rfl, rfl⟩
  | @setContext value => exact (i.setContext_quiet value t.site).2
  | allocate => exact ⟨i.graph_allocate t.site, i.kernels_allocate t.site⟩
  | invoke => exact i.same_invoke t.site

theorem turn_call {m n : Nat} {f : Interpreter σ π → Site σ π → Interpreter σ π × Site σ π}
    {action : Action σ π} (hactor : t.actor action = .tenant m)
    (hown : ∀ i, t.Turn m i action (f i t.site).1) {i' : Interpreter σ π}
    (h : ((t.call m f).2[n]?).join = some i') :
    ∃ i, t.tenant? n = some i ∧ t.Turn n i action i' := by
  obtain ⟨i, hi, rfl⟩ := tenant_call h
  refine ⟨i, hi, ?_⟩
  split
  · rename_i hm
    exact hm ▸ hown i
  · rename_i hm
    exact .other (hactor ▸ tenant_ne hm)

/-- After an action a tenant has just moved in, or it had its turn or somebody else did. -/
theorem tenant_turn {action : Action σ π} {n : Nat} {i' : Interpreter σ π}
    (h : (t.step action).tenant? n = some i') :
    (n = t.tenants.length ∧ i'.state = .created) ∨
      ∃ i, t.tenant? n = some i ∧ t.Turn n i action i' := by
  have h : ((t.act action).2[n]?).join = some i' := h
  cases action with
  | enter g resolver =>
    -- The numbers of tenants that were there are below that of the new one.
    have hother : ∀ {i}, t.tenant? n = some i → t.Turn n i (.enter g resolver) i :=
      fun hi => .other (tenant_ne (Nat.ne_of_gt (lt_of_tenant? hi)))
    unfold act at h
    dsimp only at h
    split at h
    · rename_i hcreate
      rcases join_getElem?_concat h with ⟨rfl, rfl⟩ | h
      · exact .inl ⟨rfl, (Interpreter.create_ok hcreate).2.2.1⟩
      · exact .inr ⟨i', h, hother h⟩
    · exact .inr ⟨i', h, hother h⟩
  | equip m strategy profiler profiling => exact .inr (turn_call rfl (fun _ => .equip) h)
  | setContext m value => exact .inr (turn_call rfl (fun _ => .setContext) h)
  | allocate m => exact .inr (turn_call rfl (fun _ => .allocate) h)
  | write m id bytes => exact .inr (turn_call rfl (fun _ => .write) h)
  | invoke m => exact .inr (turn_call rfl (fun _ => .invoke) h)
  | drop m =>
    unfold act at h
    dsimp only at h
    split at h
    · rename_i hnone
      refine .inr ⟨i', h, .other (tenant_ne ?_)⟩
      rintro rfl
      cases hnone.symm.trans h
    · rcases join_getElem?_set h with ⟨-, hnone⟩ | ⟨hne, hold⟩
      · cases hnone
      · exact .inr ⟨i', hold, .other (tenant_ne (Ne.symm hne))⟩
  | request region size align category => exact .inr ⟨i', h, .other nofun⟩
  | rewind => exact .inr ⟨i', h, .other nofun⟩
  | poke block offset bytes =>
    unfold act at h
    dsimp only at h
    split at h
    · exact .inr ⟨i', h, .other nofun⟩
    · exact .inr ⟨i', h, .other nofun⟩
  | hold hold => exact .inr ⟨i', h, .other nofun⟩
  | profile change => exact .inr ⟨i', h, .other nofun⟩

/-- A tenant keeps its graph and its kernels as long as it stays. -/
theorem same_run {n : Nat} {i : Interpreter σ π} (hi : t.tenant? n = some i)
    (more : List (Action σ π)) {i' : Interpreter σ π} (hi' : (t.run more).tenant? n = some i') :
    i'.graph = i.graph ∧ i'.kernels = i.kernels := by
  induction more using List.reverseRecOn generalizing i' with
  | nil =>
    cases hi.symm.trans hi'
    exact ⟨rfl, rfl⟩
  | append_singleton more action ih =>
    rw [run_snoc] at hi'
    rcases tenant_turn hi' with ⟨rfl, -⟩ | ⟨i₀, hi₀, hturn⟩
    · exact absurd (Nat.lt_of_lt_of_le (lt_of_tenant? hi) (t.length_le_run more)) (Nat.lt_irrefl _)
    · obtain ⟨hgraph, hkernels⟩ := hturn.same
      rw [hgraph, hkernels]
      exact ih hi₀

theorem succeeds_of_other {action : Action σ π} {n : Nat} (hne : t.actor action ≠ .tenant n) :
    t.succeeds n action = false := by
  cases action with
  | invoke m =>
    have hm : m ≠ n := fun heq => hne (congrArg Owner.tenant heq)
    simp [succeeds, hm]
  | _ => rfl

theorem succeeds_invoke {n : Nat} {i : Interpreter σ π} (hi : t.tenant? n = some i) :
    t.succeeds n (.invoke n) = (i.invoke t.site).1.isOk := by
  simp [succeeds, hi]

theorem site_call {n : Nat} {i : Interpreter σ π} (hi : t.tenant? n = some i)
    (f : Interpreter σ π → Site σ π → Interpreter σ π × Site σ π) :
    (t.call n f).1 = (f i t.site).2 := by
  rw [call, hi]

/-! ## One action -/

variable {meanings : List Meaning} {written : Nat → Prop} {runs : Nat}

/-- The block is the tenant's. -/
def Owned (t : Tenancy σ π) (number : Nat) (b : Block) : Prop :=
  ⟨.tenant number, b⟩ ∈ t.deeds

theorem owned_step {action : Action σ π} {n : Nat} (hactor : t.actor action = .tenant n)
    {b : Block} (hb : t.Owned n b ∨ b ∈ t.site.fresh (t.step action).site) :
    (t.step action).Owned n b := by
  rcases hb with hb | hb
  · exact List.mem_append_right _ hb
  · exact List.mem_append_left _ (hactor ▸ List.mem_map_of_mem hb)

/-- An action takes a tenant's interpreter to where it stands then: one run further if the action is an
invocation of it that succeeds. -/
theorem Sound.position_step (ht : t.Sound) {action : Action σ π} {n : Nat}
    {i i' : Interpreter σ π} (hi : t.tenant? n = some i) (hturn : t.Turn n i action i')
    (hnumber : i.graph.NumbersScratch t.site.memory)
    (hcomputed : i.graph.toGraph.Computed i.kernels meanings)
    (hwritten : ∀ id bytes, action = .write n id bytes → written id)
    (h : i.Position meanings written runs t.site (t.Owned n)) :
    i'.Position meanings written (runs + (t.succeeds n action).toNat) (t.step action).site
      ((t.step action).Owned n) := by
  obtain ⟨hmade, hstrategy, -⟩ := ht.tenants n i hi
  have hsite : ∀ f, (t.call n f).1 = (f i t.site).2 := site_call hi
  cases hturn with
  | other hne =>
    rw [succeeds_of_other hne]
    refine ⟨h.created, fun tables hstate => ?_⟩
    obtain ⟨a, hr, hblocks⟩ := h.allocated tables hstate
    refine ⟨a, hr.agree (ht.next_act action).acted.size_eq fun r hr => ?_,
      fun b hb => List.mem_append_right _ (hblocks b hb)⟩
    exact ht.agreeOn_step action (hblocks _ hr) rfl (Ne.symm hne)
  | @equip strategy profiler profiling =>
    have hstep : (t.step (.equip n strategy profiler profiling)).site = t.site := hsite _
    rw [hstep]
    refine (h.quiet (.refl _) ?_ ?_ ?_).mono (fun _ hb => List.mem_append_right _ hb) fun _ => id
    · rfl
    · rfl
    · rfl
  | @setContext value =>
    have hstep : (t.step (.setContext n value)).site = (i.setContext value t.site).2.2 := hsite _
    obtain ⟨hquiet, hgraph, hkernels⟩ := i.setContext_quiet value t.site
    rw [hstep]
    exact (h.quiet hquiet hgraph hkernels (i.state_setContext value t.site)).mono
      (fun _ hb => List.mem_append_right _ hb) fun _ => id
  | allocate =>
    have hstep : (t.step (.allocate n)).site = (i.allocate t.site).2.2 := hsite _
    have hposition := h.allocate ht.site hmade hstrategy hcomputed
    rw [← hstep] at hposition
    exact hposition.mono (fun _ => owned_step rfl) fun _ => id
  | @write id bytes =>
    have hstep : (t.step (.write n id bytes)).site = i.overwrite t.site id bytes := hsite _
    refine ⟨h.created, fun tables hstate => ?_⟩
    obtain ⟨a, hr, hblocks⟩ := h.allocated tables hstate
    rw [hstep]
    exact ⟨a, hr.overwrite (hwritten id bytes rfl) bytes,
      fun b hb => List.mem_append_right _ (hblocks b hb)⟩
  | invoke =>
    have hstep : (t.step (.invoke n)).site = (i.invoke t.site).2.2 := hsite _
    have hposition := (h.invoke ht.site hmade hstrategy hnumber hcomputed).2
    have hruns : (if (i.invoke t.site).1.isOk then runs + 1 else runs) =
        runs + (t.succeeds n (.invoke n)).toNat := by
      rw [succeeds_invoke hi]
      cases (i.invoke t.site).1.isOk with
      | false => rfl
      | true => rfl
    rw [← hstep, hruns] at hposition
    exact hposition.mono (fun _ => owned_step rfl) fun _ => id

/-! ## Whole runs -/

/-- The tenant writes the tensor in one of the actions. -/
def Writes (actions : List (Action σ π)) (number id : Nat) : Prop :=
  ∃ bytes, .write number id bytes ∈ actions

/-- After any actions a tenant's interpreter stands where its invocations that succeeded lead to. -/
theorem position_run {s : Site σ π} (hs : s.Sound) (actions : List (Action σ π)) {n : Nat}
    {i : Interpreter σ π} (hi : ((start s).run actions).tenant? n = some i)
    (hnumber : i.graph.NumbersScratch s.memory)
    (hcomputed : i.graph.toGraph.Computed i.kernels meanings) :
    i.Position meanings (Writes actions n) ((start s).successes n actions)
      ((start s).run actions).site (((start s).run actions).Owned n) := by
  -- The induction goes over the last action, and the interpreter is the one before it.
  induction actions using List.reverseRecOn generalizing i with
  | nil => cases hi
  | append_singleton actions action ih =>
    have ht := (start_sound hs).run actions
    rw [run_snoc] at hi ⊢
    rw [successes_snoc]
    rcases tenant_turn hi with ⟨hnew, hcreated⟩ | ⟨i₀, hi₀, hturn⟩
    · have hle := Nat.le_of_eq hnew.symm
      rw [succeeds_of_new hle, successes_of_new hle]
      refine ⟨fun _ => rfl, fun tables hstate => ?_⟩
      rw [hcreated] at hstate
      cases hstate
    · obtain ⟨hgraph, hkernels⟩ := hturn.same
      rw [hgraph] at hnumber hcomputed
      rw [hkernels] at hcomputed
      have hbefore := ih hi₀ hnumber hcomputed
      refine ht.position_step hi₀ hturn ?_ hcomputed ?_ ?_
      · exact hnumber.congr ((start_sound hs).size_run actions)
      · rintro id bytes rfl
        exact ⟨bytes, List.mem_append_right _ (List.mem_singleton_self _)⟩
      · refine hbefore.mono (fun _ => id) ?_
        rintro id ⟨bytes, hmem⟩
        exact ⟨bytes, List.mem_append_left _ hmem⟩

end Tenancy

end TensorArena
