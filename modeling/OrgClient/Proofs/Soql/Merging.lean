import OrgClient.Proofs.Soql.Column

namespace OrgClient.Soql

open Text
set_option autoImplicit true

theorem firstOccurrences_append (ss ts : List String) :
    firstOccurrences (ss ++ ts) = firstOccurrences ss ++ (firstOccurrences ts).filter (· ∉ ss) := by
  induction ss with
  | nil => simp [firstOccurrences]
  | cons s ss ih =>
    rw [List.cons_append, firstOccurrences, ih, firstOccurrences, List.filter_append,
      List.filter_filter, List.cons_append]
    simp only [List.mem_cons, not_or, Bool.decide_and]

theorem firstOccurrences_repeated (hs : s ∈ ss) (ts : List String) :
    firstOccurrences (ss ++ s :: ts) = firstOccurrences (ss ++ ts) := by
  rw [firstOccurrences_append, firstOccurrences_append, firstOccurrences, List.filter_cons,
    List.filter_filter]
  have hc : ∀ t ∈ firstOccurrences ts,
      (decide (t ∉ ss) && decide (t ≠ s)) = decide (t ∉ ss) := by
    intro t _
    by_cases ht : t ∈ ss
    · rw [decide_eq_false (not_not.mpr ht), Bool.false_and]
    · have hn : t ≠ s := fun he => ht (he ▸ hs)
      rw [decide_eq_true hn, Bool.and_true]
  rw [if_neg (by rw [decide_eq_false (not_not.mpr hs)]; exact Bool.false_ne_true),
    List.filter_congr hc]

theorem firstOccurrences_new (hs : s ∉ ss) :
    firstOccurrences (ss ++ [s]) = firstOccurrences ss ++ [s] := by
  rw [firstOccurrences_append, firstOccurrences, firstOccurrences, List.filter_nil,
    List.filter_singleton, decide_eq_true hs, cond_true]

theorem isEmpty_firstOccurrences (ss : List String) :
    (firstOccurrences ss).isEmpty = ss.isEmpty := by
  cases ss <;> rfl

/-- Picks from a list each element that none before it is the same as. -/
inductive FirstOf (same : α → α → Prop) : List α → List α → Prop
  | nil : FirstOf same [] []
  | new (h : FirstOf same kept xs) (hx : ∀ y ∈ xs, ¬same y x) :
    FirstOf same (kept ++ [x]) (xs ++ [x])
  | repeated (h : FirstOf same kept xs) (hy : y ∈ xs) (hx : same y x) :
    FirstOf same kept (xs ++ [x])

/-- A list and that list with elements put in behind others that are the same. -/
inductive Repeats (same : α → α → Prop) (xs : List α) : List α → Prop
  | refl : Repeats same xs xs
  | again (h : Repeats same xs (before ++ after)) (hy : y ∈ before) (hx : same y x) :
    Repeats same xs (before ++ x :: after)

/-- Texts are kept for the elements that none before them is the same as. -/
theorem exists_firstOf {f : α → String} {same : α → α → Prop} (xs : List α)
    (h : ∀ x ∈ xs, ∀ y ∈ xs, f x = f y ↔ same x y) :
    ∃ kept, FirstOf same kept xs ∧ firstOccurrences (xs.map f) = kept.map f := by
  -- The last element is looked for among those before it.
  induction xs using List.reverseRecOn with
  | nil => exact ⟨[], .nil, rfl⟩
  | append_singleton xs x ih =>
    have hxs {y : α} (hy : y ∈ xs) : y ∈ xs ++ [x] := List.mem_append_left _ hy
    have hx : x ∈ xs ++ [x] := List.mem_append_right _ List.mem_cons_self
    obtain ⟨kept, hk, he⟩ := ih fun y hy z hz => h y (hxs hy) z (hxs hz)
    rw [List.map_append, List.map_singleton]
    by_cases hm : f x ∈ xs.map f
    · obtain ⟨y, hy, hf⟩ := List.mem_map.mp hm
      refine ⟨kept, .repeated hk hy ((h y (hxs hy) x hx).mp hf), ?_⟩
      rw [firstOccurrences_repeated hm, List.append_nil, he]
    · refine ⟨kept ++ [x], .new hk fun y hy hs => ?_, ?_⟩
      · exact hm (List.mem_map.mpr ⟨y, hy, (h y (hxs hy) x hx).mpr hs⟩)
      · rw [firstOccurrences_new hm, he, List.map_append, List.map_singleton]

theorem FirstOf.subset (h : FirstOf same kept xs) : kept ⊆ xs := by
  induction h with
  | nil => exact List.Subset.refl _
  | new h hx ih =>
    exact List.append_subset.mpr
      ⟨List.Subset.trans ih (List.subset_append_left _ _), List.subset_append_right _ _⟩
  | repeated h hy hx ih => exact List.Subset.trans ih (List.subset_append_left _ _)

/-- No element that is picked is the same as one behind it. -/
theorem FirstOf.pairwise (h : FirstOf same kept xs) : kept.Pairwise fun x y => ¬same x y := by
  induction h with
  | nil => exact .nil
  | new h hx ih =>
    refine List.pairwise_append.mpr ⟨ih, List.pairwise_singleton _ _, fun y hy z hz => ?_⟩
    rw [List.mem_singleton.mp hz]
    exact hx y (h.subset hy)
  | repeated h hy hx ih => exact ih

/-- Elements that are put in behind others with the same text are not seen in what is kept. -/
theorem Repeats.firstOccurrences_eq {f : α → String} (h : Repeats same xs ys)
    (hf : ∀ x ∈ ys, ∀ y ∈ ys, same x y → f x = f y) :
    firstOccurrences (ys.map f) = firstOccurrences (xs.map f) := by
  induction h with
  | refl => rfl
  | @again before after y x h hy hx ih =>
    have hm {z : α} (hz : z ∈ before ++ after) : z ∈ before ++ x :: after := by
      rcases List.mem_append.mp hz with hz | hz
      · exact List.mem_append_left _ hz
      · exact List.mem_append_right _ (List.mem_cons_of_mem _ hz)
    have hfx : f x ∈ before.map f :=
      List.mem_map.mpr ⟨y, hy, hf y (List.mem_append_left _ hy) x
        (List.mem_append_right _ List.mem_cons_self) hx⟩
    rw [List.map_append, List.map_cons, firstOccurrences_repeated hfx, ← List.map_append]
    exact ih fun y hy z hz => hf y (hm hy) z (hm hz)

namespace Query

/-- The query with other entries in its select list, and other purposes. -/
def withLists (q : Query) (select : List FieldRef) (purposes : List Purpose) : Query :=
  ⟨q.target, { q.clauses with select, purposes }⟩

/-- Only the distinct texts of entries and purposes are seen in the text of a query. -/
theorem compose_withLists {q : Query}
    (hs : firstOccurrences (select.map FieldRef.renderSelect) = q.clauses.columns)
    (hp : firstOccurrences (purposes.map Purpose.text) = q.clauses.purposeTexts) :
    (q.withLists select purposes).compose = q.compose := by
  have hse := congrArg List.isEmpty hs
  have hpe := congrArg List.isEmpty hp
  simp only [Clauses.columns, Clauses.purposeTexts, isEmpty_firstOccurrences, List.isEmpty_map]
    at hse hpe
  have ha (target filter grouping : String) :
      (q.withLists select purposes).clauses.assemble target filter grouping =
        q.clauses.assemble target filter grouping := by
    simp only [Clauses.assemble, Clauses.tail_eq, Clauses.purposesText, Clauses.columns,
      Clauses.purposeTexts] at hs hp ⊢
    simp only [withLists, hs, hp, hpe]
    rfl
  rw [compose_eq, compose_eq]
  simp only [ha]
  simp only [withLists, hse]
  rfl

/-- What a text says of purposes. -/
def forText (purposes : List Purpose) : String :=
  if purposes.isEmpty then "" else " FOR " ++ " ".intercalate (purposes.map Purpose.text)

/-- A text is that of a query, with some columns and purposes one after the other. -/
def WrittenWith (q : Query) (kept : List FieldRef) (purposes : List Purpose) (text : String) :
    Prop :=
  ∃ filter grouping, q.clauses.filterText = .ok filter ∧ q.clauses.groupingText = .ok grouping ∧
    text = "SELECT " ++ ", ".intercalate (kept.map FieldRef.renderSelect)
      ++ " FROM " ++ trimBlank q.target ++ filter ++ grouping
      ++ (q.clauses.orderText ++ boundText " LIMIT " q.clauses.limit
        ++ boundText " OFFSET " q.clauses.offset ++ forText purposes
        ++ statisticsText q.clauses.statistics)

/-- A query merges the entries and purposes that are repeated, and no others. -/
structure Merges (q : Query) : Prop where
  alike : ∀ f ∈ q.clauses.select, ∀ g ∈ q.clauses.select,
    f.renderSelect = g.renderSelect ↔ f.SameColumn g
  written : ∃ kept purposes, FirstOf FieldRef.SameColumn kept q.clauses.select ∧
    FirstOf (· = ·) purposes q.clauses.purposes ∧ kept.Pairwise (fun f g => ¬f.SameColumn g) ∧
    ∀ text, q.compose = .ok text ↔
      q.clauses.select ≠ [] ∧ ¬isBlankText q.target ∧ q.WrittenWith kept purposes text
  repeated : ∀ select purposes, (∀ f ∈ select, f.Selectable) →
    Repeats FieldRef.SameColumn q.clauses.select select →
    Repeats (· = ·) q.clauses.purposes purposes →
    (q.withLists select purposes).compose = q.compose

theorem purposesText_eq {c : Clauses} (h : c.purposeTexts = purposes.map Purpose.text) :
    c.purposesText = forText purposes := by
  have he := congrArg List.isEmpty h
  rw [Clauses.purposeTexts, isEmpty_firstOccurrences, List.isEmpty_map, List.isEmpty_map] at he
  rw [Clauses.purposesText, forText, he, h]

/-- The text of a query has each of its columns and purposes once, where it was first, and repeating
them later does not change it. -/
theorem merges_columns {q : Query} (h : ∀ f ∈ q.clauses.select, f.Selectable) : q.Merges where
  alike f hf g hg := (h f hf).renderSelect_eq_iff (h g hg)
  written := by
    obtain ⟨kept, hk, hs⟩ := exists_firstOf q.clauses.select fun f hf g hg =>
      (h f hf).renderSelect_eq_iff (h g hg)
    have htext : ∀ p ∈ q.clauses.purposes, ∀ p' ∈ q.clauses.purposes,
        p.text = p'.text ↔ p = p' :=
      fun p _ p' _ => ⟨Purpose.text_inj, congrArg Purpose.text⟩
    obtain ⟨purposes, hp, hps⟩ := exists_firstOf q.clauses.purposes htext
    refine ⟨kept, purposes, hk, hp, hk.pairwise, fun text => ?_⟩
    rw [compose_eq_ok_iff]
    simp only [WrittenWith, Clauses.assemble, Clauses.tail_eq, purposesText_eq hps,
      Clauses.columns, hs]
  repeated select purposes hs hr hp :=
    compose_withLists
      (hr.firstOccurrences_eq fun f hf g hg => ((hs f hf).renderSelect_eq_iff (hs g hg)).mpr)
      (hp.firstOccurrences_eq fun _ _ _ _ => congrArg Purpose.text)

end Query

/-- What is selected of records that were created on a day. -/
def createdOn (day : String) : Clauses :=
  (Clauses.empty.addFields [.plain "Id"]).withFilter
    (.compare (.plain "CreatedDate") .eq (.relativeDate day))

/-- The contacts of an account that were created on a day. -/
def contactsOn (day : String) : FieldRef :=
  .subquery ("(SELECT Id FROM Contacts WHERE CreatedDate = " ++ day ++ ")")

/-- What a resolver for accounts gives for the contacts that were created on a day. -/
def resolvedContacts (day : String) : Except Error FieldRef :=
  Id.run ((Schema.Resolver.root Schema.Resolver.accounts 0).subquery "contacts"
    fun _ => return createdOn day).run

theorem resolvedContacts_eq (day : String) : resolvedContacts day = .ok (contactsOn day) := by
  have hc : Query.compose ⟨"Contacts", createdOn day⟩ =
      .ok ("SELECT Id FROM Contacts" ++ (" WHERE " ++ ("CreatedDate = " ++ day)) ++ "" ++ "") :=
    rfl
  have ht : "SELECT Id FROM Contacts" ++ (" WHERE " ++ ("CreatedDate = " ++ day)) ++ "" ++ "" =
      "SELECT Id FROM Contacts WHERE CreatedDate = " ++ day := by
    simp only [String.append_empty, ← String.append_assoc]
    rfl
  rw [ht] at hc
  rw [resolvedContacts, Schema.Resolver.asksForChild rfl]
  exact congrArg (Except.map fun text => FieldRef.subquery ("(" ++ text ++ ")")) hc

theorem createdOn_over (h : isRelativeDate day) :
    Query.Over Closed ⟨"Contacts", createdOn day⟩ := by
  have ht : Unmarked (trimBlank "Contacts") := by decide
  refine .mk (.of_unmarked ht) ?_ ?_ ?_ ?_ ?_
  · exact List.forall_mem_singleton.mpr (.plain (.of_unmarked (by decide)))
  · intro c hm
    cases hm
    exact .compare (.plain (.of_unmarked (by decide))) h
  · exact fun g hg => nomatch hg
  · exact fun g hg => nomatch hg
  · exact fun o ho => nomatch ho

theorem dotted_contactsOn (h : isRelativeDate day) : (contactsOn day).Dotted := by
  refine .of_subquery (fun name place clauses hc hcl => ?_) (resolvedContacts_eq day)
  cases hc
  cases hcl
  exact createdOn_over h

/-- A text that is no day, but the end of one query and the beginning of another. -/
def tornDay : String :=
  "TODAY), (SELECT Id FROM Contacts WHERE CreatedDate = TODAY"

/-- Accounts with columns that are repeated in other forms, and read twice for viewing. -/
def ownedAccounts : Query :=
  ⟨"Account", ⟨[.plain "Owner.Name", .related ["Owner"] "Name",
    .call .max [.call .convertCurrency [.plain "Amount"] (some "a")] (some "top"),
    .call .max [.call .convertCurrency [.plain "Amount"] none] (some "top"),
    .call .count [contactsOn "TODAY"] none, contactsOn tornDay],
    none, none, [], none, none, [.view, .view], none⟩⟩

theorem ownedAccounts_merges :
    (∀ f ∈ ownedAccounts.clauses.select, f.Selectable) ∧
      ownedAccounts.compose = .ok ("SELECT Owner.Name, MAX(convertCurrency(Amount)) top, "
        ++ "COUNT((SELECT Id FROM Contacts WHERE CreatedDate = TODAY)), "
        ++ "(SELECT Id FROM Contacts WHERE CreatedDate = TODAY), "
        ++ "(SELECT Id FROM Contacts WHERE CreatedDate = TODAY) FROM Account FOR VIEW") ∧
      ownedAccounts.Merges := by
  have hn : ∀ s ∈ some "top", isName s := fun s hs => by cases hs; rfl
  have hi : ∀ s ∈ some "a", isName s := fun s hs => by cases hs; rfl
  have ha : (FieldRef.plain "Amount").Dotted := .plain (by decide)
  have hs : ∀ f ∈ ownedAccounts.clauses.select, f.Selectable := by
    refine List.forall_mem_cons.mpr ⟨.reference (.plain (by decide)), ?_⟩
    refine List.forall_mem_cons.mpr ⟨.reference (.related (by decide) (by decide) (by decide)), ?_⟩
    refine List.forall_mem_cons.mpr ⟨.reference (.call ?_ hn), ?_⟩
    · exact List.forall_mem_singleton.mpr (.call (List.forall_mem_singleton.mpr ha) hi)
    refine List.forall_mem_cons.mpr ⟨.reference (.call ?_ hn), ?_⟩
    · exact List.forall_mem_singleton.mpr (.call (List.forall_mem_singleton.mpr ha) nofun)
    refine List.forall_mem_cons.mpr ⟨.reference (.call ?_ nofun), ?_⟩
    · exact List.forall_mem_singleton.mpr (dotted_contactsOn rfl)
    exact List.forall_mem_singleton.mpr (.of_subquery (resolvedContacts_eq tornDay))
  refine ⟨hs, by decide +kernel, Query.merges_columns hs⟩

/-- A count of one query and a count of two are not one column, but have one text if a query holds
a text that is no day. -/
theorem tornContacts_merged :
    resolvedContacts tornDay = .ok (contactsOn tornDay) ∧
      resolvedContacts "TODAY" = .ok (contactsOn "TODAY") ∧
      ¬ (FieldRef.call .count [contactsOn tornDay] none).SameColumn
        (.call .count [contactsOn "TODAY", contactsOn "TODAY"] none) ∧
      Query.compose ⟨"Account", Clauses.empty.addFields [.call .count [contactsOn tornDay] none,
        .call .count [contactsOn "TODAY", contactsOn "TODAY"] none]⟩ =
        .ok ("SELECT COUNT((SELECT Id FROM Contacts WHERE CreatedDate = TODAY), "
          ++ "(SELECT Id FROM Contacts WHERE CreatedDate = TODAY)) FROM Account") := by
  refine ⟨resolvedContacts_eq _, resolvedContacts_eq _, ?_, by decide +kernel⟩
  rintro ⟨hc, -⟩
  cases (List.cons.inj (Column.call.inj hc).2).2

end OrgClient.Soql
