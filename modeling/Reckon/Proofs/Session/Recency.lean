import Mathlib.Data.Finset.Card
import Reckon.Proofs.Session.Store

/-!
# Which texts the store keeps

The store keeps the texts that were looked up last. A lookup is answered by the tree that is kept
exactly if the text was looked up with success before and fewer distinct other texts than the store
has room for were looked up with success since. Blank texts and definitions are not looked up, and a
lookup that fails leaves the session as it was; what fails after its lookup has used the text.
-/

namespace Reckon

/-! ## Histories -/

/-- In a history of uses, the last one in front, a text was used, and fewer than so many distinct
other texts were used since. -/
def UsedWithin (capacity : Nat) (history : List String) (text : String) : Prop :=
  ∃ later before, history = later ++ text :: before ∧ text ∉ later ∧ later.toFinset.card < capacity

namespace Recent

variable {α : Type}

/-- The last entry of every key in a history, the one used last in front. -/
def lastUses : List (String × α) → List (String × α)
  | [] => []
  | entry :: earlier => entry :: (lastUses earlier).filter fun other => entry.1 != other.1

/-- A key was used last with the value that its latest entry has. -/
theorem mem_lastUses {history : List (String × α)} {key : String} {value : α} :
    (key, value) ∈ lastUses history ↔ history.lookup key = some value := by
  induction history with
  | nil => simp [lastUses]
  | cons entry earlier ih =>
    rw [lastUses, List.mem_cons, List.mem_filter, ih, List.lookup_cons]
    by_cases same : key = entry.1
    · subst same
      simp [Prod.ext_iff, eq_comm]
    · have other : (key, value) ≠ entry := fun equal => same (congrArg Prod.fst equal)
      simp [beq_eq_false_iff_ne.2 same, other, Ne.symm same]

/-- Every key has one last use. -/
theorem nodup_lastUses (history : List (String × α)) :
    ((lastUses history).map Prod.fst).Nodup := by
  induction history with
  | nil => exact List.nodup_nil
  | cons entry earlier ih =>
    rw [lastUses, List.map_cons, List.nodup_cons]
    refine ⟨fun mem => ?_, ih.sublist (List.filter_sublist.map Prod.fst)⟩
    obtain ⟨other, kept, same⟩ := List.mem_map.1 mem
    have differ := (List.mem_filter.1 kept).2
    rw [same, bne_self_eq_false] at differ
    cases differ

/-- The keys with a last use are those of the history. -/
theorem mem_map_lastUses {history : List (String × α)} {key : String} :
    key ∈ (lastUses history).map Prod.fst ↔ key ∈ history.map Prod.fst := by
  induction history with
  | nil => exact Iff.rfl
  | cons entry earlier ih =>
    by_cases same : key = entry.1
    · simp [lastUses, same]
    · have kept : key ∈ ((lastUses earlier).filter fun other => entry.1 != other.1).map Prod.fst ↔
          key ∈ (lastUses earlier).map Prod.fst := by
        simp only [List.mem_map, List.mem_filter, bne_iff_ne]
        constructor
        · rintro ⟨other, ⟨mem, -⟩, rfl⟩
          exact ⟨other, mem, rfl⟩
        · rintro ⟨other, mem, rfl⟩
          exact ⟨other, ⟨mem, Ne.symm same⟩, rfl⟩
      rw [lastUses, List.map_cons, List.map_cons, List.mem_cons, List.mem_cons, kept, ih]

/-- What was used later hides the earlier uses of the same keys. -/
theorem lastUses_append (later earlier : List (String × α)) :
    lastUses (later ++ earlier) = lastUses later ++
      (lastUses earlier).filter fun entry => entry.1 ∉ later.map Prod.fst := by
  induction later with
  | nil => simp [lastUses]
  | cons entry later ih =>
    rw [List.cons_append, lastUses, ih, List.filter_append, List.filter_filter, lastUses,
      List.cons_append]
    congr 3
    funext other
    by_cases same : other.1 = entry.1
    · simp [same]
    · simp [bne_iff_ne.2 (Ne.symm same), same]

/-- There are as many last uses as there are distinct keys in the history. -/
theorem length_lastUses (history : List (String × α)) :
    (lastUses history).length = (history.map Prod.fst).toFinset.card := by
  have same : (history.map Prod.fst).toFinset = ((lastUses history).map Prod.fst).toFinset := by
    ext key
    rw [List.mem_toFinset, List.mem_toFinset, mem_map_lastUses]
  rw [same, List.toFinset_card_of_nodup (nodup_lastUses history), List.length_map]

/-- Among the first so many entries there is one of the key exactly if fewer keys were used since. -/
theorem mem_take_lastUses_iff {capacity : Nat} {history : List (String × α)} {key : String} :
    (∃ value, (key, value) ∈ (lastUses history).take capacity) ↔
      UsedWithin capacity (history.map Prod.fst) key := by
  constructor
  · rintro ⟨value, mem⟩
    have used : key ∈ history.map Prod.fst :=
      mem_map_lastUses.1 (List.mem_map_of_mem (List.mem_of_mem_take mem))
    obtain ⟨later, before, shape, absent⟩ := List.eq_append_cons_of_mem used
    refine ⟨later, before, shape, absent, ?_⟩
    obtain ⟨uses, rest, rfl, rfl, -⟩ := List.map_eq_append_iff.1 shape
    rw [← length_lastUses]
    -- If the later uses filled the room alone, the key would have to be one of them.
    by_contra full
    rw [lastUses_append, List.take_append_of_le_length (Nat.le_of_not_lt full)] at mem
    exact absent (mem_map_lastUses.1 (List.mem_map_of_mem (List.mem_of_mem_take mem)))
  · rintro ⟨later, before, shape, absent, few⟩
    obtain ⟨uses, rest, rfl, rfl, atKey⟩ := List.map_eq_append_iff.1 shape
    obtain ⟨entry, earlier, rfl, rfl, -⟩ := List.map_eq_cons_iff.1 atKey
    rw [← length_lastUses] at few
    obtain ⟨room, enough⟩ := Nat.exists_eq_add_of_lt few
    refine ⟨entry.2, ?_⟩
    -- Behind the later uses there is room for one entry at least, and the key's comes first there.
    rw [lastUses_append, lastUses, List.filter_cons_of_pos (by simpa using absent),
      List.take_append, show capacity - (lastUses uses).length = room + 1 by omega,
      List.take_succ_cons]
    exact List.mem_append_right _ List.mem_cons_self

/-! ## The store and its history -/

/-- A key comes to the front in the same way, whether the entries that have no room are dropped
before or after it. -/
theorem take_cons_filter_take {entries : List (String × α)} (distinct : (entries.map Prod.fst).Nodup)
    (entry : String × α) (capacity : Nat) :
    (entry :: (entries.take capacity).filter fun other => entry.1 != other.1).take capacity =
      (entry :: entries.filter fun other => entry.1 != other.1).take capacity := by
  cases capacity with
  | zero => rfl
  | succ room =>
    rw [List.take_succ_cons, List.take_succ_cons]
    congr 1
    induction entries generalizing room with
    | nil => rfl
    | cons first entries ih =>
      rw [List.map_cons, List.nodup_cons] at distinct
      rw [List.take_succ_cons]
      by_cases same : entry.1 = first.1
      · -- The key was in front already, and nothing behind it has to go.
        have others : ∀ other ∈ entries, (entry.1 != other.1) = true := fun other mem =>
          bne_iff_ne.2 fun equal =>
            distinct.1 (same ▸ equal ▸ List.mem_map_of_mem mem)
        have kept := List.filter_eq_self.2 others
        have keptTake := List.filter_eq_self.2 fun other (mem : other ∈ entries.take room) =>
          others other (List.mem_of_mem_take mem)
        rw [List.filter_cons_of_neg (by simp [same]), List.filter_cons_of_neg (by simp [same]),
          kept, keptTake, List.take_take, Nat.min_self]
      · rw [List.filter_cons_of_pos (by simpa using same),
          List.filter_cons_of_pos (by simpa using same)]
        cases room with
        | zero => rfl
        | succ room => rw [List.take_succ_cons, List.take_succ_cons, ih distinct.2 room]

/-- The store holds what was used last, as far as it has room. -/
def Remembers (r : Recent α) (history : List (String × α)) : Prop :=
  r.entries = (lastUses history).take r.capacity

variable {r : Recent α} {history : List (String × α)} {key : String} {value : α}

/-- An empty store holds what was used last when nothing was used. -/
theorem remembers_ofCapacity (capacity : Nat) :
    (ofCapacity capacity : Recent α).Remembers [] :=
  List.take_nil.symm

/-- The store holds no more entries than it has room for. -/
theorem Remembers.length_le (h : r.Remembers history) : r.entries.length ≤ r.capacity := by
  rw [h, List.length_take]
  exact Nat.min_le_left _ _

/-- A key that is put into the store is the one used last. -/
theorem Remembers.put (h : r.Remembers history) (key : String) (value : α) :
    (r.put key value).Remembers ((key, value) :: history) := by
  change ((key, value) :: r.entries.filter fun other => key != other.1).take r.capacity =
    (lastUses ((key, value) :: history)).take r.capacity
  rw [h, lastUses]
  exact take_cons_filter_take (nodup_lastUses history) (key, value) r.capacity

/-- A key that is found and moved to the front is the one used last. -/
theorem Remembers.touch (h : r.Remembers history) (found : r.get? key = some value) :
    (r.touch key).Remembers ((key, value) :: history) := by
  have moved : (r.touch key).entries = (key, value) :: r.others key := by
    rw [Recent.touch, found]
  -- What is moved to the front was among the entries, so that none of them is dropped.
  have fits : ((key, value) :: r.others key).length ≤ r.capacity := by
    have fewer : (r.others key).length < r.entries.length :=
      List.length_filter_lt_length_iff_exists.2 ⟨(key, value), mem_of_get? found, by simp⟩
    exact Nat.le_trans fewer h.length_le
  have put : ((key, value) :: r.others key).take r.capacity =
      (lastUses ((key, value) :: history)).take r.capacity :=
    h.put key value
  have capacity : (r.touch key).capacity = r.capacity := by
    rw [Recent.touch, found]
  rw [Remembers, capacity, moved, ← put]
  exact (List.take_of_length_le fits).symm

/-- What is kept for a key is what it was used with last. -/
theorem Remembers.lookup_eq (h : r.Remembers history) (mem : (key, value) ∈ r.entries) :
    history.lookup key = some value := by
  rw [h] at mem
  exact mem_lastUses.1 (List.mem_of_mem_take mem)

/-- The store finds what it holds. -/
theorem Remembers.get?_eq (h : r.Remembers history) (mem : (key, value) ∈ r.entries) :
    r.get? key = some value := by
  cases found : r.get? key with
  | none => exact absurd (List.lookup_eq_none_iff.1 found _ mem) (by simp)
  | some other =>
    have last := h.lookup_eq (mem_of_get? found)
    rwa [h.lookup_eq mem, eq_comm] at last

end Recent

/-! ## Lookups -/

/-- The text that an operation looks up, and what the operation does with its tree. A definition is
parsed without being looked up. -/
def Operation.lookup? : Operation → Option (String × (Session → Expr → Except Fault Answer))
  | .eval text =>
    if Text.isBlank text then none else some (text, fun s e => (s.evalTree e).map .value)
  | .evalWith text bindings =>
    if Text.isBlank text then none
    else some (text, fun s e =>
      (s.evalTreeIn (s.scope.inherit.bindAll bindings) e).map .value)
  | .parse text => some (text, fun _ e => .ok (.tree e))
  | .differentiate text variableName =>
    some (text, fun s e => (s.differentiateTree variableName e).map .value)
  | .integrate text variableName lower upper =>
    some (text, fun s e =>
      ((Expr.integrateWith (fun scope => e.evalWithin s.settings s.settings.maxDepth scope) s.scope
        variableName lower upper).map fun area =>
          (Value.number area).rounded s.settings.precision).map .value)
  | .matrix text => some (text, fun s e => (s.matrixOfTree e).map .matrix)
  | .define _ | .bind _ _ | .unbind _ | .setPrecision _ | .setAngle _ | .register _ _ => none

namespace Session

/-- The text that an operation looks up with success, with what it finds. -/
def found? (s : Session) (op : Operation) : Option (String × Parsed) :=
  op.lookup?.bind fun lookup => (s.parse lookup.1).1.toOption.map (lookup.1, ·)

/-- What the operations of a run look up with success, the last one in front. -/
def lookups (s : Session) : List Operation → List (String × Parsed)
  | [] => []
  | op :: ops => (s.perform op).2.lookups ops ++ (s.found? op).toList

variable {s : Session} {op : Operation}

/-- Turning what an operation on a text gives into an answer leaves its lookup as it is. -/
theorem answering_withTree {α : Type} (answer : α → Answer) (s : Session) (text : String)
    (f : Session → Expr → Except Fault α) :
    answering answer (s.withTree text f) = s.withTree text fun s e => (f s e).map answer := by
  unfold answering withTree
  split <;> rfl

/-- An operation that looks a text up goes on with the tree of the text, or fails without it. -/
theorem perform_of_lookup {text : String} {use : Session → Expr → Except Fault Answer}
    (looks : op.lookup? = some (text, use)) : s.perform op = s.withTree text use := by
  cases op with
  | eval other | evalWith other bindings =>
    simp only [Operation.lookup?] at looks
    split at looks
    · cases looks
    · next worded =>
      cases looks
      simp only [perform, eval, evalWith, if_neg worded, answering_withTree]
  | parse other =>
    cases looks
    simp only [perform, answering, withTree]
    rcases s.parse text with ⟨_ | _, _⟩ <;> rfl
  | differentiate | integrate | matrix =>
    cases looks
    exact answering_withTree _ _ _ _
  | define | bind | unbind | setPrecision | setAngle | register => cases looks

/-- An operation that looks nothing up leaves the store as it is. -/
theorem recent_of_no_lookup (looks : op.lookup? = none) :
    (s.perform op).2.recent = s.recent ∧ (s.perform op).2.parses = s.parses := by
  cases op with
  | eval text | evalWith text bindings =>
    simp only [Operation.lookup?] at looks
    split at looks
    · next blank => simp only [perform, eval, evalWith, if_pos blank, answering, and_self]
    · cases looks
  | define text =>
    simp only [perform, answering, define]
    split
    · exact ⟨rfl, rfl⟩
    · split <;> exact ⟨rfl, rfl⟩
  | bind | unbind | setPrecision | setAngle | register => exact ⟨rfl, rfl⟩
  | parse | differentiate | integrate | matrix => cases looks

/-- What is done with a tree has no effect on the store. -/
theorem withTree_snd {α : Type} (s : Session) (text : String)
    (f : Session → Expr → Except Fault α) : (s.withTree text f).2 = (s.parse text).2 := by
  unfold withTree
  split
  · next read => rw [read]
  · next read => rw [read]

/-! ## The store of a session -/

/-- Between the operations of a run: the store holds the texts of its lookups that were used last, and
every tree was parsed before the next one will be. -/
structure Remembers (s : Session) (capacity : Nat) (history : List (String × Parsed)) : Prop where
  capacity_eq : s.recent.capacity = capacity
  recent : s.recent.Remembers history
  numbered : ∀ entry ∈ s.recent.entries, entry.2.serial < s.parses

variable {capacity : Nat} {history : List (String × Parsed)}

/-- A new session holds nothing and has room for as many trees as the settings say, but at least
one. -/
theorem remembers_new (settings : Settings) :
    (new settings).Remembers (max 1 settings.cacheSize) [] :=
  ⟨rfl, Recent.remembers_ofCapacity _, fun _ mem => nomatch mem⟩

/-- A text that is found or parsed comes in front of the history, and one that is not leaves the
session as it was. -/
theorem Remembers.parse (h : s.Remembers capacity history) (text : String) :
    (∃ parsed, (s.parse text).1 = .ok parsed ∧
      (s.parse text).2.Remembers capacity ((text, parsed) :: history)) ∨
    (∃ fault, s.parse text = (.error fault, s)) := by
  cases found : s.recent.get? text with
  | some parsed =>
    refine .inl ⟨parsed, ?_, ?_⟩
    · simp only [Session.parse, found]
    · have touched := h.recent.touch found
      have capacity_eq : (s.recent.touch text).capacity = s.recent.capacity := by
        rw [Recent.touch, found]
      simp only [Session.parse, found]
      exact ⟨capacity_eq.trans h.capacity_eq, touched,
        fun entry mem => h.numbered entry (Recent.mem_touch mem)⟩
  | none =>
    cases parses : Expr.parse s.settings.maxDepth text with
    | error fault =>
      refine .inr ⟨fault, ?_⟩
      simp only [Session.parse, found, parses]
    | ok tree =>
      refine .inl ⟨⟨tree, s.parses⟩, ?_, ?_⟩
      · simp only [Session.parse, found, parses]
      · simp only [Session.parse, found, parses]
        refine ⟨h.capacity_eq, h.recent.put text _, fun entry mem => ?_⟩
        rcases Recent.mem_put mem with rfl | mem
        · exact Nat.lt_succ_self s.parses
        · exact Nat.lt_succ_of_lt (h.numbered entry mem)

/-- An operation moves the text that it looks up with success to the front, and no other. -/
theorem Remembers.perform (h : s.Remembers capacity history) (op : Operation) :
    (s.perform op).2.Remembers capacity ((s.found? op).toList ++ history) := by
  cases looks : op.lookup? with
  | none =>
    obtain ⟨recent, parses⟩ := recent_of_no_lookup (s := s) looks
    have nothing : s.found? op = none := by rw [found?, looks, Option.bind_none]
    rw [nothing]
    refine ⟨?_, ?_, ?_⟩ <;> rw [recent]
    · exact h.capacity_eq
    · exact h.recent
    · rw [parses]
      exact h.numbered
  | some lookup =>
    obtain ⟨text, use⟩ := lookup
    rw [perform_of_lookup looks, withTree_snd, found?, looks, Option.bind_some]
    rcases h.parse text with ⟨parsed, answer, remembers⟩ | ⟨fault, failed⟩
    · rw [answer]
      exact remembers
    · rw [failed]
      exact h

/-- After a run, what was looked up last in it stands in front of what was looked up before. -/
theorem Remembers.after (h : s.Remembers capacity history) (ops : List Operation) :
    (s.after ops).Remembers capacity (s.lookups ops ++ history) := by
  induction ops generalizing s history with
  | nil => exact h
  | cons op ops ih =>
    rw [Session.after, lookups, List.append_assoc]
    exact ih (h.perform op)

/-- A lookup of a text is answered by a tree that is in the store. -/
def AnswersFromStore (s : Session) (text : String) : Prop :=
  ∃ parsed, (text, parsed) ∈ s.recent.entries ∧ (s.parse text).1 = .ok parsed

/-- A lookup of a text in the store gives the tree that is kept. -/
theorem Remembers.parse_of_mem (h : s.Remembers capacity history) {text : String} {parsed : Parsed}
    (kept : (text, parsed) ∈ s.recent.entries) : (s.parse text).1 = .ok parsed := by
  simp only [Session.parse, h.recent.get?_eq kept]

/-- A lookup is answered from the store exactly if its text was used, and fewer distinct others
since than there is room for. -/
theorem Remembers.answersFromStore_iff (h : s.Remembers capacity history) (text : String) :
    s.AnswersFromStore text ↔ UsedWithin capacity (history.map Prod.fst) text := by
  have kept : (∃ parsed, (text, parsed) ∈ s.recent.entries) ↔
      UsedWithin capacity (history.map Prod.fst) text := by
    rw [h.recent, h.capacity_eq]
    exact Recent.mem_take_lastUses_iff
  rw [← kept]
  exact ⟨fun ⟨parsed, mem, _⟩ => ⟨parsed, mem⟩,
    fun ⟨parsed, mem⟩ => ⟨parsed, mem, h.parse_of_mem mem⟩⟩

/-- A text that is not in the store is parsed, and its tree gets the next number. -/
theorem parse_of_not_kept {text : String} (absent : ∀ parsed, (text, parsed) ∉ s.recent.entries) :
    (s.parse text).1 = (Expr.parse s.settings.maxDepth text).map (⟨·, s.parses⟩) := by
  cases found : s.recent.get? text with
  | some parsed => exact absurd (Recent.mem_of_get? found) (absent parsed)
  | none =>
    simp only [Session.parse, found]
    cases Expr.parse s.settings.maxDepth text <;> rfl

/-- A session with room for so many trees, after lookups that were successful, the last one in front,
keeps those that were looked up last. -/
structure KeepsLast (s : Session) (capacity : Nat) (history : List (String × Parsed)) : Prop where
  /-- An operation that looks a text up works on the tree that the lookup answers. -/
  lookup : ∀ op text use, Operation.lookup? op = some (text, use) →
    s.perform op = s.withTree text use
  /-- Every other operation leaves the store alone. -/
  other : ∀ op, Operation.lookup? op = none → (s.perform op).2.recent = s.recent
  answers_iff : ∀ text,
    s.AnswersFromStore text ↔ UsedWithin capacity (history.map Prod.fst) text
  /-- What the store answers is what the text was looked up with last, and older than what the next
  parse makes. -/
  kept : ∀ text parsed, (text, parsed) ∈ s.recent.entries →
    history.lookup text = some parsed ∧ parsed.serial < s.parses
  /-- What the store does not answer is parsed now. -/
  parsed : ∀ text, ¬ s.AnswersFromStore text →
    (s.parse text).1 = (Expr.parse s.settings.maxDepth text).map (⟨·, s.parses⟩)
  length_le : s.recent.entries.length ≤ capacity
  /-- A lookup without success changes nothing. -/
  failed : ∀ op text use fault, Operation.lookup? op = some (text, use) →
    (s.parse text).1 = .error fault → s.perform op = (.error fault, s)

/-- A session that holds what was used last keeps what was looked up last. -/
theorem Remembers.keepsLast (h : s.Remembers capacity history) : s.KeepsLast capacity history where
  lookup _ _ _ looks := perform_of_lookup looks
  other _ looks := (recent_of_no_lookup looks).1
  answers_iff := h.answersFromStore_iff
  kept _ _ mem := ⟨h.recent.lookup_eq mem, h.numbered _ mem⟩
  parsed text unanswered :=
    parse_of_not_kept fun parsed mem => unanswered ⟨parsed, mem, h.parse_of_mem mem⟩
  length_le := h.capacity_eq ▸ h.recent.length_le
  failed op text use fault looks unread := by
    rcases h.parse text with ⟨parsed, answer, -⟩ | ⟨other, same⟩
    · rw [answer] at unread
      cases unread
    · rw [same] at unread
      cases unread
      rw [perform_of_lookup looks, withTree, same]

end Session

/-- Whatever a new session was asked for, it keeps the texts that were looked up last. -/
theorem store_keeps_recent_texts (settings : Settings) (ops : List Operation) :
    ((Session.new settings).after ops).KeepsLast (max 1 settings.cacheSize)
      ((Session.new settings).lookups ops) := by
  have remembers := (Session.remembers_new settings).after ops
  rw [List.append_nil] at remembers
  exact remembers.keepsLast

/-- With room for two texts: `x` is looked up again and stays, blank text and text that cannot be read
take no room, and `2` has to go. -/
example : (((Session.new { cacheSize := 2 }).after [.parse "x", .eval "2", .eval "x", .eval "",
    .parse "(", .matrix "3"]).recent.entries.map Prod.fst) = ["3", "x"] := by
  decide +kernel

end Reckon
