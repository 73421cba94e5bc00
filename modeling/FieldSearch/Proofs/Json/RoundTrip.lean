import FieldSearch.Json.Value
import FieldSearch.Proofs.Json.Reading

/-! A document that was written is read back, whatever its spacing, if it is not nested too deeply,
and is malformed else. Numbers are left out: they are not written as they were read. Besides, two
documents that differ in nothing but the order of members are nested equally deeply. -/

namespace FieldSearch.Json

mutual

/-- How many arrays and objects are inside one another. -/
def depth : Json → Nat
  | .array items => depthOfItems items + 1
  | .object members => depthOfMembers members + 1
  | .null | .boolean _ | .number _ | .string _ => 0

def depthOfItems : List Json → Nat
  | [] => 0
  | item :: items => max item.depth (depthOfItems items)

def depthOfMembers : List (String × Json) → Nat
  | [] => 0
  | (_, value) :: members => max value.depth (depthOfMembers members)

end

theorem depthOfItems_le_iff {items : List Json} {greatest : Nat} :
    depthOfItems items ≤ greatest ↔ ∀ item ∈ items, item.depth ≤ greatest := by
  induction items with
  | nil => simp [depthOfItems]
  | cons item items ih => simp only [depthOfItems, Nat.max_le, ih, List.forall_mem_cons]

theorem depthOfMembers_le_iff {members : List (String × Json)} {greatest : Nat} :
    depthOfMembers members ≤ greatest ↔ ∀ member ∈ members, member.2.depth ≤ greatest := by
  induction members with
  | nil => simp [depthOfMembers]
  | cons member members ih => simp only [depthOfMembers, Nat.max_le, ih, List.forall_mem_cons]

/-! ### Reading what was written -/

theorem afterWord_append (word rest : List Char) : afterWord word (word ++ rest) = .ok rest := by
  induction word with
  | nil => rfl
  | cons w word ih => simpa [afterWord] using ih

theorem word_append (chars : List Char) (ne : chars ≠ []) (rest : List Char) :
    ∃ shorter, word chars ne (chars ++ rest) = .ok ⟨rest, shorter⟩ := by
  have hfound := afterWord_append chars rest
  have hlength := length_afterWord hfound
  have hpos := List.length_pos_iff.mpr ne
  refine ⟨by omega, ?_⟩
  unfold word
  split
  next fault hfault =>
    rw [hfound] at hfault
    cases hfault
  next r hr =>
    rw [hfound] at hr
    cases hr
    rfl

/-- A string is read, whatever is expected of it. -/
theorem readStringFor_written (expected text : String) (rest : List Char) :
    Settles True text rest (readStringFor expected (writtenString text ++ rest)) := by
  rw [writtenString, List.cons_append, List.cons_append, List.append_assoc, readStringFor,
    if_pos rfl]
  exact (openedString_written 0 text rest).map id Rest.behind fun _ => rfl

theorem readValue_bracket (purpose : Purpose) (s : List Char) :
    readValue purpose ('[' :: s) =
      match purpose.inside? with
      | none => .error .malformed
      | some inside =>
        (elements (n := ('[' :: s).length) (fun t _ => readValue inside t) s
          (length_lt_cons '[' s)).map fun (items, rest) => (.array items, rest.behind) := by
  rw [readValue]
  rfl

theorem readValue_brace (purpose : Purpose) (s : List Char) :
    readValue purpose ('\x7b' :: s) =
      match purpose.inside? with
      | none => .error .malformed
      | some inside =>
        (members (n := ('\x7b' :: s).length) purpose
          (fun (before : List (String × Json)) key => .ok fun t _ =>
            (readValue inside t).map fun (value, rest) => ((key, value) :: before, rest))
          [] s (length_lt_cons '\x7b' s)).map
          fun (members, rest) => (.object members.reverse, rest.behind) := by
  rw [readValue]
  rfl

variable {spacing : Spacing}

/-- Members that are kept are gathered one after another, whatever they are put into. -/
theorem gathers_kept {σ : Type} {n greatest depth : Nat}
    (item : σ → String → Except Fault (ReaderBelow n σ)) (put : σ → String × Json → σ)
    {parts : List (String × Json)}
    (hitem : ∀ state, ∀ member ∈ parts, item state member.1 = .ok fun t _ =>
      (readValue (.keep greatest) t).map fun (value, rest) => (put state (member.1, value), rest))
    (hread : ∀ member ∈ parts, ∀ rest, Settles (member.2.depth ≤ greatest) member.2 rest
      (readValue (.keep greatest) (write spacing depth member.2 ++ rest)))
    (state : σ) :
    Gathers item spacing depth (fun value => value.depth ≤ greatest) state parts
      (parts.foldl put state) := by
  induction parts generalizing state with
  | nil => exact .nil
  | cons member parts ih =>
      have hmore := ih (fun state member hmem => hitem state member (by simp [hmem]))
        (fun member hmem => hread member (by simp [hmem])) (put state member)
      refine .cons (hitem state member (by simp)) (fun rest _ => ?_) hmore
      exact (hread member (by simp) rest).map (fun value => put state (member.1, value)) id
        fun _ => rfl

/-- A document without numbers is read back from the front of a text, if it is not nested too
deeply. -/
theorem IsPlain.readValue_written {json : Json} (hplain : json.IsPlain)
    (hspacing : spacing.IsNeutral) (greatest depth : Nat) (rest : List Char) :
    Settles (json.depth ≤ greatest) json rest
      (readValue (.keep greatest) (write spacing depth json ++ rest)) := by
  induction hplain generalizing greatest depth rest with
  | null =>
      obtain ⟨_, hword⟩ := word_append ['n', 'u', 'l', 'l'] (by simp) rest
      rw [write, List.cons_append, readValue, if_pos rfl]
      exact .taken _ (Nat.zero_le _) (congrArg _ hword) rfl
  | @boolean value =>
      cases value with
      | true =>
          obtain ⟨_, hword⟩ := word_append ['t', 'r', 'u', 'e'] (by simp) rest
          rw [write, List.cons_append, readValue, if_neg (by decide), if_pos rfl]
          exact .taken _ (Nat.zero_le _) (congrArg _ hword) rfl
      | false =>
          obtain ⟨_, hword⟩ := word_append ['f', 'a', 'l', 's', 'e'] (by simp) rest
          rw [write, List.cons_append, readValue, if_neg (by decide), if_neg (by decide),
            if_pos rfl]
          exact .taken _ (Nat.zero_le _) (congrArg _ hword) rfl
  | @string text =>
      rw [write, writtenString, List.cons_append, List.cons_append, List.append_assoc, readValue,
        if_neg (by decide), if_neg (by decide), if_neg (by decide), if_pos rfl]
      exact ((openedString_written greatest text rest).map Json.string Rest.behind
        fun _ => rfl).congr (by simp [Json.depth])
  | @array items hitems ih =>
      obtain ⟨s, hs⟩ := exists_write_array spacing depth items rest
      rw [hs, readValue_bracket]
      cases greatest with
      | zero => exact .refused (by simp [Json.depth]) rfl
      | succ greatest =>
          have htakes : List.Forall₂ (ReaderBelow.Takes
              (fun t (_ : t.length < ('[' :: s).length) => readValue (.keep greatest) t) spacing
              (depth + 1) fun item => item.depth ≤ greatest) items items :=
            List.forall₂_same.mpr fun item hmem rest _ => ih item hmem greatest (depth + 1) rest
          have hread := elements_written hspacing hitems htakes hs (length_lt_cons '[' s)
          refine (hread.map Json.array Rest.behind fun _ => rfl).congr ?_
          simp [Json.depth, depthOfItems_le_iff]
  | @object parts hparts ih =>
      obtain ⟨s, hs⟩ := exists_write_object spacing depth parts rest
      rw [hs, readValue_brace]
      cases greatest with
      | zero => exact .refused (by simp [Json.depth]) rfl
      | succ greatest =>
          have hgathers := gathers_kept (n := ('\x7b' :: s).length)
            (fun (before : List (String × Json)) key => .ok fun t _ =>
              (readValue (.keep greatest) t).map fun (value, rest) =>
                ((key, value) :: before, rest))
            (fun before member => member :: before) (fun _ _ _ => rfl)
            (fun member hmem => ih member hmem greatest (depth + 1)) []
          rw [List.foldl_flip_cons_eq_append', List.append_nil] at hgathers
          have hread := members_written (greatest + 1) hspacing hparts hgathers hs
            (length_lt_cons '\x7b' s)
          have hback := hread.map (t := '\x7b' :: s) (fun members => Json.object members.reverse)
            Rest.behind fun _ => rfl
          rw [List.reverse_reverse] at hback
          refine hback.congr ?_
          simp [Json.depth, depthOfMembers_le_iff]

/-- A reader that takes the whole of a written document takes it as a text. -/
theorem document_written {α : Type} {reader : Reader α} {json : Json} (hplain : json.IsPlain)
    {fits : Prop} {a : α} (hread : Settles fits a [] (reader (write spacing 0 json)))
    {text : String} (htext : text.toList = write spacing 0 json) :
    (fits → document reader text = .ok a) ∧
      (¬fits → document reader text = .error .malformed) := by
  obtain ⟨c, inner, hwrite, hc, -⟩ := hplain.exists_write_eq_cons spacing 0
  have hskip : skipBlanks text.toList = write spacing 0 json := by
    rw [htext, hwrite]
    exact skipBlanks_append (List.forall_mem_nil _) hc inner
  have hsame : ∀ t, t = write spacing 0 json → Settles fits a [] (reader t) := by
    rintro _ rfl
    exact hread
  have hwhole : Settles fits a [] (afterBlanks reader text.toList) :=
    (hsame _ hskip).map id behindBlanks fun _ => rfl
  rcases hwhole.cases_result with ⟨hfits, _, hwhole⟩ | ⟨hfits, hwhole⟩
  · rw [document, hwhole]
    exact ⟨fun _ => rfl, absurd hfits⟩
  · rw [document, hwhole]
    exact ⟨fun hyes => absurd hyes hfits, fun _ => rfl⟩

/-- What a reader reports comes before anything that stands behind what it has read. -/
theorem document_eq_error {α : Type} {reader : Reader α} {fault : Fault} {text : String}
    {inner : List Char} (hskip : skipBlanks text.toList = inner)
    (hread : reader inner = .error fault) : document reader text = .error fault := by
  subst hskip
  rw [document, afterBlanks, hread]
  rfl

theorem toList_compact (json : Json) : json.compact.toList = write .compact 0 json :=
  String.toList_ofList

theorem toList_pretty (json : Json) : json.pretty.toList = write .indented 0 json :=
  String.toList_ofList

/-! ### The order of members -/

/-- The same document, but for the order of the members of objects. -/
inductive Reordered : Json → Json → Prop
  | null : Reordered .null .null
  | boolean {value} : Reordered (.boolean value) (.boolean value)
  | number {value} : Reordered (.number value) (.number value)
  | string {value} : Reordered (.string value) (.string value)
  | array {items items'} : List.Forall₂ Reordered items items' →
      Reordered (.array items) (.array items')
  | object {members middle members' : List (String × Json)} :
      members.map Prod.fst = middle.map Prod.fst →
      List.Forall₂ Reordered (members.map Prod.snd) (middle.map Prod.snd) →
      middle.Perm members' → Reordered (.object members) (.object members')

theorem IsPlain.reordered_self {json : Json} (hplain : json.IsPlain) : Reordered json json := by
  induction hplain with
  | null => exact .null
  | boolean => exact .boolean
  | string => exact .string
  | array _ ih => exact .array (List.forall₂_same.mpr ih)
  | object _ ih =>
      refine .object rfl (List.forall₂_same.mpr fun value hmem => ?_) .rfl
      obtain ⟨member, hmember, rfl⟩ := List.mem_map.mp hmem
      exact ih member hmember

/-- Member by member, and then in another order. -/
theorem Reordered.exists_of_object {members : List (String × Json)} {json : Json}
    (hsame : Reordered (.object members) json) :
    ∃ middle members', json = .object members' ∧ middle.Perm members' ∧
      List.Forall₂ (fun member member' => member.1 = member'.1 ∧ Reordered member.2 member'.2)
        members middle := by
  cases hsame with
  | @object _ middle members' hkeys hvalues hperm =>
      refine ⟨middle, members', rfl, hperm, ?_⟩
      clear hperm
      induction members generalizing middle with
      | nil =>
          cases middle with
          | nil => exact .nil
          | cons => simp at hkeys
      | cons member members ih =>
          cases middle with
          | nil => simp at hkeys
          | cons member' middle =>
              simp only [List.map_cons, List.cons.injEq, List.forall₂_cons] at hkeys hvalues
              exact .cons ⟨hkeys.1, hvalues.1⟩ (ih hkeys.2 hvalues.2)

/-- What holds of all on the left holds of all on the right, if it passes from each to its partner.
-/
theorem forall_mem_iff_of_forall₂ {α β : Type} {R : α → β → Prop} {P : α → Prop} {Q : β → Prop}
    {xs : List α} {ys : List β} (hpairs : List.Forall₂ R xs ys)
    (hiff : ∀ x ∈ xs, ∀ y, R x y → (P x ↔ Q y)) : (∀ x ∈ xs, P x) ↔ ∀ y ∈ ys, Q y := by
  induction hpairs with
  | nil => simp
  | @cons x y xs ys hpair _ ih =>
      rw [List.forall_mem_cons, List.forall_mem_cons, hiff x (by simp) y hpair,
        ih fun x hmem => hiff x (by simp [hmem])]

/-- Without numbers in the one, there are none in the other, and both are nested equally deeply. -/
theorem IsPlain.of_reordered {json json' : Json} (hplain : json.IsPlain)
    (hsame : Reordered json json') :
    json'.IsPlain ∧ ∀ greatest, json.depth ≤ greatest ↔ json'.depth ≤ greatest := by
  induction hplain generalizing json' with
  | null =>
      cases hsame
      exact ⟨.null, fun _ => .rfl⟩
  | boolean =>
      cases hsame
      exact ⟨.boolean, fun _ => .rfl⟩
  | string =>
      cases hsame
      exact ⟨.string, fun _ => .rfl⟩
  | @array items hitems ih =>
      cases hsame with
      | @array _ items' hpairs =>
          refine ⟨.array ?_, fun greatest => ?_⟩
          · exact (forall_mem_iff_of_forall₂ hpairs fun item hmem item' hpair =>
              iff_of_true (hitems item hmem) (ih item hmem hpair).1).mp hitems
          · cases greatest with
            | zero => simp [Json.depth]
            | succ greatest =>
                simp only [Json.depth, Nat.add_le_add_iff_right, depthOfItems_le_iff]
                exact forall_mem_iff_of_forall₂ hpairs fun item hmem item' hpair =>
                  (ih item hmem hpair).2 greatest
  | @object members hmembers ih =>
      obtain ⟨middle, members', rfl, hperm, hpairs⟩ := hsame.exists_of_object
      refine ⟨.object fun member hmem => ?_, fun greatest => ?_⟩
      · exact (forall_mem_iff_of_forall₂ hpairs fun member hmem member' hpair =>
          iff_of_true (hmembers member hmem) (ih member hmem hpair.2).1).mp hmembers member
            (hperm.mem_iff.mpr hmem)
      · cases greatest with
        | zero => simp [Json.depth]
        | succ greatest =>
            simp only [Json.depth, Nat.add_le_add_iff_right, depthOfMembers_le_iff,
              ← hperm.mem_iff]
            exact forall_mem_iff_of_forall₂ hpairs fun member hmem member' hpair =>
              (ih member hmem hpair.2).2 greatest

end FieldSearch.Json
