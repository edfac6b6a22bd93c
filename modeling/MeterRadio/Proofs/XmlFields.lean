/-
Module: MeterRadio.Proofs.XmlFields
Purpose: The fields of an element are read as they were written: an element for each field that has
  one value, a run of elements for each list, told apart by their names; and numbers in them.
Main exports: Xml.Run, Xml.groups_runs, Xml.fields?_runs, Xml.group?_of_getElem?, Xml.numberField,
  Xml.reads_numbers, Xml.number?_of_getElem?, Xml.numbers?_of_getElem?, Xml.word_of_getElem?,
  Xml.words_of_getElem?
-/
import MeterRadio.Log.Xml
import MeterRadio.Proofs.EntryJson
import MeterRadio.Proofs.XmlText

namespace MeterRadio.Xml

/-! ### Fields of an element

A list repeats its element, so the fields of an element are runs of elements with one name. Runs of
distinct names are told apart without knowing how long they are. -/

theorem localName_of_isName {tag : String} (h : isName tag = true) : localName tag = tag := by
  have hcolon : tag.toList.dropWhile (· != ':') = [] := by
    rw [List.dropWhile_eq_nil_iff]
    intro c hc
    exact bne_iff_ne.2 (ne_of_class (isAlpha_of_isName h c hc) (by decide))
  rw [localName, hcolon]

/-- The elements of a field: one of its name, or a run of them if it is a list. -/
structure Run (lists : List String) (field : String × List Node) : Prop where
  name : isName field.1 = true
  nonempty : field.2 ≠ []
  single : field.1 ∉ lists → field.2.length = 1
  elements : ∀ node ∈ field.2,
    ∃ content, node = .element field.1 true content ∧ startsBroken node = false

section Runs

variable {lists : List String} {fields : List (String × List Node)}

/-- The elements of a run belong to the name of its field, and to no other. -/
theorem Run.continues_eq {field : String × List Node} (h : Run lists field) (name : String) :
    ∀ node ∈ field.2, continues name node = (field.1 == name) := by
  intro node hnode
  obtain ⟨content, rfl, -⟩ := h.elements node hnode
  rfl

/-- A run ends where elements of other names follow. -/
theorem Run.span {field : String × List Node} {first : Node} {more others : List Node}
    (h : Run lists field) (hfirst : field.2 = first :: more)
    (hothers : ∀ node ∈ others, continues field.1 node = false) :
    (more ++ others).takeWhile (continues field.1) = more ∧
      (more ++ others).dropWhile (continues field.1) = others := by
  have hmore : ∀ node ∈ more, continues field.1 node = true := by
    intro node hnode
    rw [h.continues_eq field.1 node (hfirst ▸ List.mem_cons_of_mem first hnode)]
    exact beq_self_eq_true field.1
  rw [List.takeWhile_append_of_pos hmore, List.dropWhile_append_of_pos hmore]
  cases others with
  | nil => exact ⟨List.append_nil more, rfl⟩
  | cons node rest =>
      have hstop : ¬ continues field.1 node = true := by
        rw [hothers node List.mem_cons_self]
        exact Bool.false_ne_true
      rw [List.takeWhile_cons_of_neg hstop, List.dropWhile_cons_of_neg hstop]
      exact ⟨List.append_nil more, rfl⟩

/-- A run in front is taken as one field. -/
theorem groups_run {field : String × List Node} {others : List Node} (h : Run lists field)
    (hothers : ∀ node ∈ others, continues field.1 node = false) (fuel : Nat) :
    groups lists (fuel + 1) (field.2 ++ others) = field :: groups lists fuel others := by
  obtain ⟨first, more, hfirst⟩ := List.exists_cons_of_ne_nil h.nonempty
  obtain ⟨htake, hdrop⟩ := h.span hfirst hothers
  obtain ⟨content, hnode, -⟩ := h.elements first (by rw [hfirst]; exact List.mem_cons_self)
  have hfield : field = (field.1, first :: more) := by rw [← hfirst]
  rw [hfirst, List.cons_append, hnode, groups, localName_of_isName h.name]
  split
  case isTrue hlist => rw [htake, hdrop, ← hnode, ← hfield]
  case isFalse hlist =>
    -- What is no list is one element, and its run ends with it.
    have hsingle : more = [] := by
      have hlength := h.single fun hmem => hlist (List.contains_iff_mem.2 hmem)
      rw [hfirst] at hlength
      exact List.length_eq_zero_iff.1 (Nat.succ.inj hlength)
    rw [hsingle] at hfield ⊢
    rw [List.nil_append, ← hnode, ← hfield]

/-- Runs of distinct names are told apart, each with all its elements in order. -/
theorem groups_runs (hruns : ∀ field ∈ fields, Run lists field)
    (hdistinct : (fields.map Prod.fst).Nodup) :
    ∀ fuel, fields.length ≤ fuel → groups lists fuel (fields.flatMap Prod.snd) = fields := by
  induction fields with
  | nil =>
      intro fuel _
      cases fuel <;> rfl
  | cons field rest ih =>
      intro fuel hfuel
      obtain ⟨hrun, hrest⟩ := List.forall_mem_cons.1 hruns
      rw [List.map_cons, List.nodup_cons] at hdistinct
      have hothers : ∀ node ∈ rest.flatMap Prod.snd, continues field.1 node = false := by
        intro node hnode
        obtain ⟨other, hother, hmem⟩ := List.mem_flatMap.1 hnode
        have hname : other.1 ∈ rest.map Prod.fst := List.mem_map_of_mem hother
        rw [(hrest other hother).continues_eq field.1 node hmem, beq_eq_false_iff_ne]
        exact fun heq => hdistinct.1 (heq ▸ hname)
      obtain ⟨fuel, rfl⟩ := Nat.exists_eq_add_one_of_ne_zero (Nat.ne_zero_of_lt hfuel)
      rw [List.flatMap_cons, groups_run hrun hothers,
        ih hrest hdistinct.2 fuel (Nat.le_of_succ_le_succ hfuel)]

/-- There are no more fields than elements. -/
theorem length_le_length_flatMap (hruns : ∀ field ∈ fields, Run lists field) :
    fields.length ≤ (fields.flatMap Prod.snd).length := by
  induction fields with
  | nil => exact Nat.le_refl 0
  | cons field rest ih =>
      obtain ⟨hrun, hrest⟩ := List.forall_mem_cons.1 hruns
      have hone := List.length_pos_iff.2 hrun.nonempty
      have hmore := ih hrest
      rw [List.flatMap_cons, List.length_append, List.length_cons]
      omega

/-- The fields of an element that consists of the runs of its fields. -/
theorem fields?_runs (tag : String) (hruns : ∀ field ∈ fields, Run lists field)
    (hdistinct : (fields.map Prod.fst).Nodup) :
    (Node.element tag true (fields.flatMap Prod.snd)).fields? lists = some fields := by
  have hreadable : (fields.flatMap Prod.snd).any startsBroken = false := by
    rw [List.any_eq_false]
    intro node hnode
    obtain ⟨field, hfield, hmem⟩ := List.mem_flatMap.1 hnode
    obtain ⟨-, -, hsound⟩ := (hruns field hfield).elements node hmem
    rw [hsound]
    exact Bool.false_ne_true
  have hroom := Nat.le_succ_of_le (length_le_length_flatMap hruns)
  rw [Node.fields?, hreadable, groups_runs hruns hdistinct _ hroom]
  rfl

end Runs

section Lookup

variable {fields : List (String × List Node)}

/-- Among fields of distinct names, the one of a name has the nodes of that name. -/
theorem group?_of_getElem? (hdistinct : (fields.map Prod.fst).Nodup) (k : Nat) {name : String}
    {nodes : List Node} (h : fields[k]? = some (name, nodes)) :
    group? name fields = some nodes := by
  rw [group?, filter_key_eq_singleton hdistinct (List.mem_of_getElem? h)]

theorem field?_of_getElem? (hdistinct : (fields.map Prod.fst).Nodup) (k : Nat) {name : String}
    {node : Node} (h : fields[k]? = some (name, [node])) : field? name fields = some node := by
  rw [field?, group?_of_getElem? hdistinct k h]
  rfl

end Lookup

/-! ### Numbers -/

theorem solid_decimal (n : Nat) : Solid (Text.decimal n).toList := by
  rw [Text.decimal, String.toList_ofList]
  exact ⟨Nat.toDigits_ne_nil, fun c hc => isSpace_of_isDigit (Text.isDigit_of_mem_toDigits n c hc)⟩

theorem natural?_leaf {limit n : Nat} (h : n ≤ limit) (tag : String) :
    (leaf tag (Text.decimal n)).natural? limit = some n := by
  rw [Node.natural?, leaf, Node.scalar?, Option.bind_some, Text.decimal, String.toList_ofList,
    Text.natural?_toDigits h]

/-- The nodes of a name and its numbers. -/
def numberField (part : String × List Nat) : String × List Node :=
  (part.1, part.2.map fun n => leaf part.1 (Text.decimal n))

section Numbers

variable {lists : List String} {parts : List (String × List Nat)}

/-- Fields of numbers are written as the elements of their nodes. -/
theorem reads_numbers (h : ∀ part ∈ parts, isName part.1 = true) :
    Reads (parts.flatMap fun part => numberElements part.1 part.2)
      ((parts.map numberField).flatMap Prod.snd) := by
  rw [List.flatMap_map]
  refine reads_flatMap fun part hpart => ?_
  have hnodes : (numberField part).2 = part.2.flatMap fun n => [leaf part.1 (Text.decimal n)] :=
    List.map_eq_flatMap
  rw [hnodes]
  exact reads_flatMap fun n _ => reads_textElement (h part hpart) (solid_decimal n)

theorem run_numberField {part : String × List Nat} (hname : isName part.1 = true)
    (hne : part.2 ≠ []) (hsingle : part.1 ∉ lists → part.2.length = 1) :
    Run lists (numberField part) where
  name := hname
  nonempty hnil := hne (List.map_eq_nil_iff.1 hnil)
  single hmem := (List.length_map _).trans (hsingle hmem)
  elements := by
    intro node hnode
    obtain ⟨n, -, rfl⟩ := List.mem_map.1 hnode
    exact ⟨_, rfl, rfl⟩

theorem map_fst_numberField : (parts.map numberField).map Prod.fst = parts.map Prod.fst := by
  rw [List.map_map]
  rfl

theorem group?_numberField (hdistinct : (parts.map Prod.fst).Nodup) (k : Nat) {name : String}
    {ns : List Nat} (h : parts[k]? = some (name, ns)) :
    group? name (parts.map numberField) = some (ns.map fun n => leaf name (Text.decimal n)) := by
  rw [← map_fst_numberField] at hdistinct
  apply group?_of_getElem? hdistinct k
  rw [List.getElem?_map, h]
  rfl

theorem numbers?_of_getElem? (hdistinct : (parts.map Prod.fst).Nodup) (k : Nat) {name : String}
    {limit : Nat} {ns : List Nat} (h : parts[k]? = some (name, ns)) (hlimit : ∀ n ∈ ns, n ≤ limit) :
    numbers? limit (parts.map numberField) name = some ns := by
  rw [numbers?, group?_numberField hdistinct k h, Option.bind_some, List.mapM_map]
  exact (Json.mapM_eq_some fun n hn => natural?_leaf (hlimit n hn) name).trans
    (congrArg some (List.map_id ns))

theorem number?_of_getElem? (hdistinct : (parts.map Prod.fst).Nodup) (k : Nat) {name : String}
    {limit n : Nat} (h : parts[k]? = some (name, [n])) (hlimit : n ≤ limit) :
    number? limit (parts.map numberField) name = some n := by
  rw [number?, field?, group?_numberField hdistinct k h]
  exact natural?_leaf hlimit name

/-! Words are written as numbers and read back in the limit of their type. What is particular to a
type is its limit and its way to numbers and back, so these are arguments. -/

section Words

variable {W : Type} {toNat : W → Nat} {ofNat : Nat → W} {limit : Nat}
  (hlimit : ∀ w, toNat w ≤ limit) (hdistinct : (parts.map Prod.fst).Nodup)

include hlimit hdistinct

theorem word_of_getElem? (hback : ∀ w, ofNat (toNat w) = w) (k : Nat) {name : String} {w : W}
    (h : parts[k]? = some (name, [toNat w])) :
    (number? limit (parts.map numberField) name).map ofNat = some w := by
  rw [number?_of_getElem? hdistinct k h (hlimit w), Option.map_some, hback]

theorem words_of_getElem? (k : Nat) {name : String} {words : List W}
    (h : parts[k]? = some (name, words.map toNat)) :
    numbers? limit (parts.map numberField) name = some (words.map toNat) := by
  refine numbers?_of_getElem? hdistinct k h fun n hn => ?_
  obtain ⟨w, -, rfl⟩ := List.mem_map.1 hn
  exact hlimit w

end Words

end Numbers

end MeterRadio.Xml
