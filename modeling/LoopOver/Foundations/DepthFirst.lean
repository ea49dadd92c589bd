import LoopOver.Foundations.Acyclic
import Mathlib.Logic.Function.Basic

/-!
# Cycle search by depth

The colouring search for a cycle: a node is grey while its successors are visited and black when all
of them are done; to meet a grey node is to have found a cycle.

* `visit` takes fuel for its depth, and `exists_search_eq` says that the number of nodes is enough.
* `Sorted` is an order of nodes in which the successors of a node come after it, and a search that
  finds nothing leaves its black nodes in such an order (`search_sorted`).
* `acyclic_of_search`: a search from all nodes that finds nothing shows that there is no cycle.
* `cycle_of_search`: a search that finds something has found a cycle.
-/

namespace LoopOver.DepthFirst

open List

inductive Color
  | white
  | grey
  | black
  deriving DecidableEq

variable {α : Type}

/-- Look at successors in turn; `visit` is called on the known ones that are white. -/
def scan (visit : α → (α → Color) → Option (Bool × (α → Color))) (known : α → Bool) :
    List α → (α → Color) → Option (Bool × (α → Color))
  | [], color => some (false, color)
  | dep :: rest, color =>
    match color dep with
    | .grey => some (true, color)
    | .black => scan visit known rest color
    | .white =>
      if known dep then
        match visit dep color with
        | some (false, color) => scan visit known rest color
        | found => found
      else scan visit known rest color

/-- Visit a node; `true` is a cycle. -/
def visit [DecidableEq α] (known : α → Bool) (deps : α → List α) :
    ℕ → α → (α → Color) → Option (Bool × (α → Color))
  | 0, _, _ => none
  | fuel + 1, id, color =>
    match scan (visit known deps fuel) known (deps id) (Function.update color id .grey) with
    | some (false, color) => some (false, Function.update color id .black)
    | found => found

/-- Visit the white ones among the nodes in turn, until a cycle is found. -/
def search [DecidableEq α] (known : α → Bool) (deps : α → List α) (fuel : ℕ) :
    List α → (α → Color) → Option Bool
  | [], _ => some false
  | id :: rest, color =>
    if color id = .white then
      match visit known deps fuel id color with
      | some (false, color) => search known deps fuel rest color
      | some (true, _) => some true
      | none => none
    else search known deps fuel rest color

/-! ## The fuel is enough -/

section Fuel

variable {known : α → Bool} {deps : α → List α} {nodes : List α} {color : α → Color} {id : α}

/-- The nodes that are still white. -/
def whites (nodes : List α) (color : α → Color) : ℕ :=
  (nodes.filter fun node => color node = .white).length

/-- No node becomes white again. -/
def Darkens (color color' : α → Color) : Prop := ∀ node, color' node = .white → color node = .white

theorem whites_le {color' : α → Color} (h : Darkens color color') :
    whites nodes color' ≤ whites nodes color := by
  refine (List.Sublist.length_le ?_)
  refine monotone_filter_right nodes fun node hnode => ?_
  exact decide_eq_true (h node (of_decide_eq_true hnode))

theorem whites_update_lt [DecidableEq α] (hid : id ∈ nodes) (hwhite : color id = .white) :
    whites nodes (Function.update color id .grey) < whites nodes color := by
  unfold whites
  rw [← countP_eq_length_filter, ← countP_eq_length_filter]
  induction nodes with
  | nil => exact absurd hid not_mem_nil
  | cons node nodes ih =>
    have hle : List.countP (fun n => decide (Function.update color id .grey n = .white)) nodes ≤
        List.countP (fun n => decide (color n = .white)) nodes := by
      refine countP_mono_left fun n _ hn => ?_
      by_cases hsame : n = id
      · subst hsame
        simp at hn
      · simpa [hsame] using hn
    by_cases hsame : node = id
    · subst hsame
      simp only [countP_cons, Function.update_self, hwhite]
      simp
      omega
    · have hrest := ih ((mem_cons.1 hid).resolve_left (Ne.symm hsame))
      simp only [countP_cons, Function.update_of_ne hsame]
      omega

theorem exists_scan_eq {visit : α → (α → Color) → Option (Bool × (α → Color))} {bound : ℕ}
    (hvisit : ∀ id color, id ∈ nodes → color id = .white → whites nodes color ≤ bound →
      ∃ found color', visit id color = some (found, color') ∧ Darkens color color')
    (hknown : ∀ id, known id = true → id ∈ nodes) (successors : List α) :
    ∀ color, whites nodes color ≤ bound →
      ∃ found color', scan visit known successors color = some (found, color') ∧
        Darkens color color' := by
  induction successors with
  | nil => exact fun color _ => ⟨false, color, rfl, fun _ h => h⟩
  | cons dep rest ih =>
    intro color hbound
    rw [scan]
    cases hcolor : color dep with
    | grey => exact ⟨true, color, rfl, fun _ h => h⟩
    | black => exact ih color hbound
    | white =>
      dsimp only
      split
      · next hdep =>
        obtain ⟨found, color', hfound, hdark⟩ := hvisit dep color (hknown dep hdep) hcolor hbound
        rw [hfound]
        cases found with
        | true => exact ⟨true, color', rfl, hdark⟩
        | false =>
          obtain ⟨found, color'', hscan, hdark'⟩ :=
            ih color' (Nat.le_trans (whites_le hdark) hbound)
          exact ⟨found, color'', hscan, fun node h => hdark node (hdark' node h)⟩
      · exact ih color hbound

theorem exists_visit_eq [DecidableEq α] (deps : α → List α)
    (hknown : ∀ id, known id = true → id ∈ nodes) (fuel : ℕ) :
    ∀ id color, id ∈ nodes → color id = .white → whites nodes color ≤ fuel →
      ∃ found color', visit known deps fuel id color = some (found, color') ∧
        Darkens color color' := by
  induction fuel with
  | zero =>
    intro id color hid hwhite hfuel
    have := whites_update_lt hid hwhite
    omega
  | succ fuel ih =>
    intro id color hid hwhite hfuel
    have hless := whites_update_lt hid hwhite
    obtain ⟨found, color', hscan, hdark⟩ := exists_scan_eq ih hknown (deps id)
      (Function.update color id .grey) (by omega)
    have hdark' : Darkens color color' := by
      intro node hnode
      have hgrey := hdark node hnode
      by_cases hsame : node = id
      · rw [hsame, hwhite]
      · rwa [Function.update_of_ne hsame] at hgrey
    rw [visit, hscan]
    cases found with
    | true => exact ⟨true, color', rfl, hdark'⟩
    | false =>
      refine ⟨false, Function.update color' id .black, rfl, fun node hnode => ?_⟩
      by_cases hsame : node = id
      · rw [hsame, hwhite]
      · rw [Function.update_of_ne hsame] at hnode
        exact hdark' node hnode

/-- The search comes to an end on all the nodes. -/
theorem exists_search_eq [DecidableEq α] (hknown : ∀ id, known id = true → id ∈ nodes)
    {roots : List α} (hroots : ∀ id ∈ roots, id ∈ nodes) (color : α → Color) :
    ∃ found, search known deps nodes.length roots color = some found := by
  induction roots generalizing color with
  | nil => exact ⟨false, rfl⟩
  | cons id rest ih =>
    have hrest := ih fun node hnode => hroots node (mem_cons_of_mem _ hnode)
    rw [search]
    split
    · next hwhite =>
      obtain ⟨found, color', hvisit, -⟩ := exists_visit_eq deps hknown nodes.length id color
        (hroots id mem_cons_self) hwhite (length_filter_le _ _)
      rw [hvisit]
      cases found with
      | true => exact ⟨true, rfl⟩
      | false => exact hrest color'
    · exact hrest color

end Fuel

/-! ## No cycle when none is found -/

/-- The known successors of a node come after it. -/
inductive Sorted (known : α → Bool) (deps : α → List α) : List α → Prop
  | nil : Sorted known deps []
  | cons {id : α} {order : List α} (hdeps : ∀ dep ∈ deps id, known dep = true → dep ∈ order)
      (hid : id ∉ order) (h : Sorted known deps order) : Sorted known deps (id :: order)

section Soundness

variable {known : α → Bool} {deps : α → List α} {color color' : α → Color} {order : List α} {id : α}

/-- The black nodes, in the order of a search that is under way. -/
structure Blackened (known : α → Bool) (deps : α → List α) (color : α → Color) (order : List α) :
    Prop where
  black_iff : ∀ node, color node = .black ↔ node ∈ order
  sorted : Sorted known deps order

/-- What a part of the search leaves: more black nodes, and the same grey ones. -/
structure Extends (known : α → Bool) (deps : α → List α) (color color' : α → Color)
    (order order' : List α) : Prop where
  blackened : Blackened known deps color' order'
  subset : order ⊆ order'
  grey_iff : ∀ node, color' node = .grey ↔ color node = .grey

theorem Extends.refl (h : Blackened known deps color order) :
    Extends known deps color color order order :=
  ⟨h, fun _ hmem => hmem, fun _ => Iff.rfl⟩

theorem Extends.trans {color'' : α → Color} {order' order'' : List α}
    (h : Extends known deps color color' order order')
    (h' : Extends known deps color' color'' order' order'') :
    Extends known deps color color'' order order'' :=
  ⟨h'.blackened, fun _ hmem => h'.subset (h.subset hmem), fun node =>
    (h'.grey_iff node).trans (h.grey_iff node)⟩

/-- A visit that finds nothing blackens its node. -/
def Blackens (known : α → Bool) (deps : α → List α)
    (visit : α → (α → Color) → Option (Bool × (α → Color))) : Prop :=
  ∀ id color color' order, visit id color = some (false, color') → color id = .white →
    Blackened known deps color order →
      ∃ order', Extends known deps color color' order order' ∧ id ∈ order'

theorem scan_extends {visit : α → (α → Color) → Option (Bool × (α → Color))}
    (hvisit : Blackens known deps visit) {successors : List α} {order : List α}
    (h : scan visit known successors color = some (false, color'))
    (hblack : Blackened known deps color order) :
    ∃ order', Extends known deps color color' order order' ∧
      ∀ dep ∈ successors, known dep = true → dep ∈ order' := by
  induction successors generalizing color order with
  | nil =>
    cases h
    exact ⟨order, .refl hblack, fun _ hmem => absurd hmem not_mem_nil⟩
  | cons dep rest ih =>
    rw [scan] at h
    cases hcolor : color dep with
    | grey =>
      rw [hcolor] at h
      cases h
    | black =>
      rw [hcolor] at h
      obtain ⟨order', hextends, hrest⟩ := ih h hblack
      refine ⟨order', hextends, fun node hmem hknown => ?_⟩
      rcases mem_cons.1 hmem with rfl | hmem
      · exact hextends.subset ((hblack.black_iff node).1 hcolor)
      · exact hrest node hmem hknown
    | white =>
      rw [hcolor] at h
      dsimp only at h
      split at h
      · split at h
        · next hknown mid hfound =>
          obtain ⟨order₁, hextends, hdep⟩ := hvisit dep color mid order hfound hcolor hblack
          obtain ⟨order₂, hextends', hrest⟩ := ih h hextends.blackened
          refine ⟨order₂, hextends.trans hextends', fun node hmem hknown => ?_⟩
          rcases mem_cons.1 hmem with rfl | hmem
          · exact hextends'.subset hdep
          · exact hrest node hmem hknown
        · next hknown hfound => exact absurd h (hfound _)
      · next hunknown =>
        obtain ⟨order', hextends, hrest⟩ := ih h hblack
        refine ⟨order', hextends, fun node hmem hknown => ?_⟩
        rcases mem_cons.1 hmem with rfl | hmem
        · exact absurd hknown hunknown
        · exact hrest node hmem hknown

theorem visit_blackens [DecidableEq α] (fuel : ℕ) :
    Blackens known deps (visit known deps fuel) := by
  induction fuel with
  | zero =>
    intro id color color' order h
    cases h
  | succ fuel ih =>
    intro id color color' order h hwhite hblack
    have hstart : Blackened known deps (Function.update color id .grey) order := by
      refine ⟨fun node => ?_, hblack.sorted⟩
      by_cases hsame : node = id
      · subst hsame
        rw [Function.update_self, ← hblack.black_iff node, hwhite]
        decide
      · rw [Function.update_of_ne hsame, hblack.black_iff node]
    rw [visit] at h
    split at h
    · next mid hscan =>
      obtain ⟨order', hextends, hdeps⟩ := scan_extends ih hscan hstart
      cases h
      have hgrey : mid id = .grey := (hextends.grey_iff id).2 (Function.update_self ..)
      have hid : id ∉ order' := by
        rw [← hextends.blackened.black_iff id, hgrey]
        decide
      refine ⟨id :: order', ⟨⟨fun node => ?_, .cons hdeps hid hextends.blackened.sorted⟩,
        fun node hmem => mem_cons_of_mem _ (hextends.subset hmem), fun node => ?_⟩,
        mem_cons_self⟩
      · by_cases hsame : node = id
        · subst hsame
          simp
        · rw [Function.update_of_ne hsame, hextends.blackened.black_iff, mem_cons,
            or_iff_right hsame]
      · by_cases hsame : node = id
        · subst hsame
          rw [Function.update_self, hwhite]
          decide
        · rw [Function.update_of_ne hsame, hextends.grey_iff, Function.update_of_ne hsame]
    · next hfound => exact absurd h (hfound _)

theorem search_sorted [DecidableEq α] {fuel : ℕ} {roots : List α} {order : List α}
    (h : search known deps fuel roots color = some false)
    (hblack : Blackened known deps color order) (hgrey : ∀ node, color node ≠ .grey) :
    ∃ order', Sorted known deps order' ∧ order ⊆ order' ∧ ∀ id ∈ roots, id ∈ order' := by
  induction roots generalizing color order with
  | nil => exact ⟨order, hblack.sorted, fun _ hmem => hmem, fun _ hmem => absurd hmem not_mem_nil⟩
  | cons id rest ih =>
    rw [search] at h
    split at h
    · next hwhite =>
      split at h
      · next mid hvisit =>
        obtain ⟨order₁, hextends, hid⟩ :=
          visit_blackens fuel id color mid order hvisit hwhite hblack
        obtain ⟨order₂, hsorted, hsubset, hrest⟩ := ih h hextends.blackened
          fun node hnode => hgrey node ((hextends.grey_iff node).1 hnode)
        refine ⟨order₂, hsorted, fun node hmem => hsubset (hextends.subset hmem),
          fun node hmem => ?_⟩
        rcases mem_cons.1 hmem with rfl | hmem
        · exact hsubset hid
        · exact hrest node hmem
      · cases h
      · cases h
    · next hseen =>
      obtain ⟨order', hsorted, hsubset, hrest⟩ := ih h hblack hgrey
      refine ⟨order', hsorted, hsubset, fun node hmem => ?_⟩
      rcases mem_cons.1 hmem with rfl | hmem
      · refine hsubset ((hblack.black_iff node).1 ?_)
        cases hcolor : color node with
        | white => exact absurd hcolor hseen
        | grey => exact absurd hcolor (hgrey node)
        | black => rfl
      · exact hrest node hmem

theorem Sorted.mem_of_dep (h : Sorted known deps order) {dep : α} (hid : id ∈ order)
    (hdep : dep ∈ deps id) (hknown : known dep = true) : dep ∈ order := by
  induction h with
  | nil => exact absurd hid not_mem_nil
  | @cons node order hdeps hnode _ ih =>
    rcases mem_cons.1 hid with rfl | hid
    · exact mem_cons_of_mem _ (hdeps dep hdep hknown)
    · exact mem_cons_of_mem _ (ih hid)

/-- The position of a known successor is further on. -/
theorem Sorted.idxOf_lt [DecidableEq α] (h : Sorted known deps order) {dep : α} (hid : id ∈ order)
    (hdep : dep ∈ deps id) (hknown : known dep = true) : order.idxOf id < order.idxOf dep := by
  induction h with
  | nil => exact absurd hid not_mem_nil
  | @cons node order hdeps hnode hsorted ih =>
    by_cases hsame : id = node
    · subst hsame
      have hne : dep ≠ id := fun heq => hnode (heq ▸ hdeps dep hdep hknown)
      rw [idxOf_cons_self, idxOf_cons_ne _ (Ne.symm hne)]
      exact Nat.succ_pos _
    · have hmem := (mem_cons.1 hid).resolve_left hsame
      have hne : dep ≠ node := fun heq => hnode (heq ▸ hsorted.mem_of_dep hmem hdep hknown)
      have hlater := ih hmem
      rw [idxOf_cons_ne _ (Ne.symm hsame), idxOf_cons_ne _ (Ne.symm hne)]
      omega

/-- One known node has the other among its successors. -/
def DependsOn (known : α → Bool) (deps : α → List α) (a b : α) : Prop :=
  known a = true ∧ known b = true ∧ b ∈ deps a

theorem acyclic_of_search [DecidableEq α] {fuel : ℕ} {roots : List α}
    (hroots : ∀ id, known id = true → id ∈ roots)
    (h : search known deps fuel roots (fun _ => .white) = some false) :
    Acyclic (DependsOn known deps) := by
  have hblack : Blackened known deps (fun _ => .white) [] :=
    ⟨fun node => iff_of_false (by decide) not_mem_nil, .nil⟩
  obtain ⟨order, hsorted, -, hmem⟩ := search_sorted h hblack fun _ => by decide
  refine acyclic_of_strict (s := fun a b => order.idxOf a < order.idxOf b) ?_ ?_ ?_
  · rintro a b ⟨ha, hb, hdep⟩
    exact hsorted.idxOf_lt (hmem a (hroots a ha)) hdep hb
  · intro a b c hab hbc
    omega
  · intro a haa
    omega

end Soundness

/-! ## A cycle when one is found -/

section Completeness

variable {known : α → Bool} {deps : α → List α} {color color' : α → Color} {id : α} {found : Bool}

/-- The grey nodes are known, and lead to the node that is visited. -/
def GreyLeads (known : α → Bool) (deps : α → List α) (color : α → Color) (id : α) : Prop :=
  ∀ node, color node = .grey →
    known node = true ∧ Relation.ReflTransGen (DependsOn known deps) node id

/-- What a part of the search has found: a cycle, or else the same nodes are grey as before. -/
structure Reports (known : α → Bool) (deps : α → List α) (color color' : α → Color) (found : Bool) :
    Prop where
  cycle : found = true → ¬Acyclic (DependsOn known deps)
  grey_iff : found = false → ∀ node, color' node = .grey ↔ color node = .grey

theorem scan_reports {visit : α → (α → Color) → Option (Bool × (α → Color))}
    (hvisit : ∀ dep color color' found, visit dep color = some (found, color') →
      color dep = .white →
      known dep = true → GreyLeads known deps color dep → Reports known deps color color' found)
    {successors : List α} (hsuccessors : successors ⊆ deps id) (hid : known id = true)
    (h : scan visit known successors color = some (found, color'))
    (hgrey : GreyLeads known deps color id) :
    Reports known deps color color' found := by
  induction successors generalizing color with
  | nil =>
    cases h
    exact ⟨fun htrue => absurd htrue Bool.false_ne_true, fun _ _ => Iff.rfl⟩
  | cons dep rest ih =>
    have hdep : dep ∈ deps id := hsuccessors mem_cons_self
    have hrest : rest ⊆ deps id := fun node hmem => hsuccessors (mem_cons_of_mem _ hmem)
    rw [scan] at h
    cases hcolor : color dep with
    | grey =>
      rw [hcolor] at h
      cases h
      obtain ⟨hknown, hleads⟩ := hgrey dep hcolor
      -- the grey successor leads back to the node
      exact ⟨fun _ hacyclic => hacyclic id (Relation.TransGen.head' ⟨hid, hknown, hdep⟩ hleads),
        nofun⟩
    | black =>
      rw [hcolor] at h
      exact ih hrest h hgrey
    | white =>
      rw [hcolor] at h
      dsimp only at h
      split at h
      · next hknown =>
        have hgrey' : GreyLeads known deps color dep := fun node hnode =>
          ⟨(hgrey node hnode).1, (hgrey node hnode).2.tail ⟨hid, hknown, hdep⟩⟩
        split at h
        · next mid hmid =>
          have hsame := (hvisit dep color mid false hmid hcolor hknown hgrey').grey_iff rfl
          have hreports := ih hrest h fun node hnode => hgrey node ((hsame node).1 hnode)
          exact ⟨hreports.cycle, fun hfalse node =>
            (hreports.grey_iff hfalse node).trans (hsame node)⟩
        · exact hvisit dep color color' found h hcolor hknown hgrey'
      · exact ih hrest h hgrey

theorem visit_reports [DecidableEq α] (fuel : ℕ) : ∀ id color color' found,
    visit known deps fuel id color = some (found, color') → color id = .white → known id = true →
      GreyLeads known deps color id → Reports known deps color color' found := by
  induction fuel with
  | zero =>
    intro id color color' found h
    cases h
  | succ fuel ih =>
    intro id color color' found h hwhite hid hgrey
    have hstart : GreyLeads known deps (Function.update color id .grey) id := by
      intro node hnode
      by_cases hsame : node = id
      · rw [hsame]
        exact ⟨hid, .refl⟩
      · rw [Function.update_of_ne hsame] at hnode
        exact hgrey node hnode
    rw [visit] at h
    split at h
    · next mid hscan =>
      cases h
      have hsame := (scan_reports ih (fun _ hmem => hmem) hid hscan hstart).grey_iff rfl
      refine ⟨fun htrue => absurd htrue Bool.false_ne_true, fun _ node => ?_⟩
      by_cases hnode : node = id
      · rw [hnode, Function.update_self, hwhite]
        decide
      · rw [Function.update_of_ne hnode, hsame, Function.update_of_ne hnode]
    · next hfound =>
      have hreports := scan_reports ih (fun _ hmem => hmem) hid h hstart
      refine ⟨hreports.cycle, fun hfalse => ?_⟩
      rw [hfalse] at h
      exact absurd h (hfound color')

/-- A search from known nodes that finds something has found a cycle. -/
theorem cycle_of_search [DecidableEq α] {fuel : ℕ} {roots : List α}
    (hroots : ∀ id ∈ roots, known id = true) (h : search known deps fuel roots color = some true)
    (hgrey : ∀ node, color node ≠ .grey) :
    ¬Acyclic (DependsOn known deps) := by
  induction roots generalizing color with
  | nil => cases h
  | cons id rest ih =>
    have hrest : ∀ id ∈ rest, known id = true :=
      fun node hmem => hroots node (mem_cons_of_mem _ hmem)
    have hleads : GreyLeads known deps color id := fun node hnode => absurd hnode (hgrey node)
    have hid : known id = true := hroots id mem_cons_self
    rw [search] at h
    split at h
    · next hwhite =>
      split at h
      · next mid hvisit =>
        have hsame := (visit_reports fuel id color mid false hvisit hwhite hid hleads).grey_iff rfl
        exact ih hrest h fun node hnode => hgrey node ((hsame node).1 hnode)
      · next mid hvisit =>
          exact (visit_reports fuel id color mid true hvisit hwhite hid hleads).cycle rfl
      · cases h
    · exact ih hrest h hgrey

end Completeness

end LoopOver.DepthFirst
