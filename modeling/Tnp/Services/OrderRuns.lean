import Tnp.Lib.Fallible
import Tnp.Lib.Table
import Tnp.Services.Orders

/-!
Orders are charged once, for what they list.

The books are right after every statement. Within the transaction they are but for its order, of
which the lines so far are charged.
-/

namespace Tnp.Services.Orders

open Tnp.Lib Tnp.Lib.Run Tnp.Lib.Table

/-! ### Books -/

/-- A quote as it was given. -/
def QuoteRow.terms (quote : QuoteRow) : QuoteRow := { quote with consumedAt := none }

/-- What the lines of an order come to. -/
def Db.charged (db : Db) (order : ℕ) : ℤ :=
  ((db.lines.filter (·.orderId = order)).map (·.price.minor)).sum

/-- A line is for a consumed quote of the order's owner, at its price, and for its name. -/
def Db.Sells (db : Db) (l : OrderLine) : Prop :=
  ∃ order quote domain, db.orders[l.orderId]? = some order ∧ db.quotes.get l.quoteId = some quote ∧
    db.domains[l.publicDomainId]? = some domain ∧ quote.ownerId = order.ownerId ∧
      quote.consumedAt.isSome ∧ l.price = quote.price ∧
        quote.price.currency = order.total.currency ∧ domain.ownerId = order.ownerId ∧
          domain.asciiName = quote.asciiName

/-- An operation registers the name of a line, for no more than its quote's cost. -/
def Db.Fulfils (db : Db) (op : Operation) (line : ℕ) (l : OrderLine) : Prop :=
  op.orderId = l.orderId ∧ op.lineId = line ∧ op.publicDomainId = l.publicDomainId ∧
    ∃ quote, db.quotes.get l.quoteId = some quote ∧
      op.maxCostMinor = quote.costMinor + quote.feesMinor ∧ op.years = quote.years ∧
        op.ownerId = quote.ownerId

/-- One request of one owner. -/
def OrderRow.SameKey (a b : OrderRow) : Prop :=
  a.ownerId = b.ownerId ∧ a.idempotencyKey = b.idempotencyKey

/-- One name, live in one account. -/
def PublicDomain.SameName (a b : PublicDomain) : Prop :=
  a.live = true ∧ b.live = true ∧ a.providerAccountId = b.providerAccountId ∧
    a.asciiName = b.asciiName

/-- The tables agree, and the lines of an order come to what it owes. -/
structure Db.Books (db : Db) (owed : ℕ → ℤ) : Prop where
  keys : Distinct OrderRow.SameKey db.orders
  names : Distinct PublicDomain.SameName db.domains
  once : Distinct (fun a b : OrderLine => a.quoteId = b.quoteId) db.lines
  sells : ∀ l ∈ db.lines, db.Sells l
  consumed : ∀ id quote, db.quotes.get id = some quote → quote.consumedAt.isSome = true →
    ∃ l ∈ db.lines, l.quoteId = id
  fulfilled : ∀ (i : ℕ) (l : OrderLine), db.lines[i]? = some l →
    ∃ op, db.operations[l.operationId]? = some op ∧ db.Fulfils op i l
  operations : ∀ (j : ℕ) (op : Operation), db.operations[j]? = some op →
    ∃ l, db.lines[op.lineId]? = some l ∧ l.operationId = j
  charged : ∀ i, db.charged i = owed i

/-- What each order owes. -/
def Db.owed (db : Db) (order : ℕ) : ℤ := (db.orders[order]?).elim 0 (·.total.minor)

/-- Quotes stay as they were given, and orders as they were placed. -/
structure Db.Grows (db db' : Db) : Prop where
  quotes : ∀ id (quote : QuoteRow), db.quotes.get id = some quote →
    ∃ quote', db'.quotes.get id = some quote' ∧ quote'.terms = quote.terms
  orders : ∀ (i : ℕ) order, db.orders[i]? = some order → db'.orders[i]? = some order

variable {db db' db'' : Db} {owed : ℕ → ℤ} {input : PlaceOrderInput} {total : Money}
  {ids rest : List String} {id intentHash : String} {order i : ℕ} {payment : PaymentAuthorization}

lemma Db.Grows.refl (db : Db) : db.Grows db := ⟨fun _ quote h => ⟨quote, h, rfl⟩, fun _ _ h => h⟩

lemma Db.Grows.trans (h : db.Grows db') (h' : db'.Grows db'') : db.Grows db'' where
  quotes id quote hquote := by
    obtain ⟨quote', hquote', heq⟩ := h.quotes id quote hquote
    obtain ⟨quote'', hquote'', heq'⟩ := h'.quotes id quote' hquote'
    exact ⟨quote'', hquote'', heq'.trans heq⟩
  orders i order horder := h'.orders i order (h.orders i order horder)

/-! ### Prices -/

def Db.priceMinor (db : Db) (id : String) : ℤ := ((db.quotes.get id).map (·.price.minor)).getD 0

/-- The total of some quotes, which have one currency. -/
structure Db.Priced (db : Db) (ids : List String) (total : Money) : Prop where
  known : ∀ id ∈ ids, ∃ quote, db.quotes.get id = some quote ∧ quote.price.currency = total.currency
  minor : total.minor = (ids.map db.priceMinor).sum

lemma price_of_terms {quote quote' : QuoteRow} (h : quote'.terms = quote.terms) :
    quote'.price = quote.price := by
  simpa [QuoteRow.terms] using congrArg QuoteRow.price h

lemma Db.Grows.priceMinor (h : db.Grows db') {quote : QuoteRow}
    (hquote : db.quotes.get id = some quote) : db'.priceMinor id = db.priceMinor id := by
  obtain ⟨quote', hquote', heq⟩ := h.quotes id quote hquote
  rw [Db.priceMinor, Db.priceMinor, hquote, hquote', Option.map_some, Option.map_some,
    price_of_terms heq]

lemma Db.Priced.grows (h : db.Priced ids total) (hgrows : db.Grows db') : db'.Priced ids total where
  known id hid := by
    obtain ⟨quote, hquote, hcurrency⟩ := h.known id hid
    obtain ⟨quote', hquote', heq⟩ := hgrows.quotes id quote hquote
    exact ⟨quote', hquote', by rw [price_of_terms heq, hcurrency]⟩
  minor := by
    rw [h.minor]
    refine congrArg List.sum (List.map_congr_left fun id hid => ?_)
    obtain ⟨quote, hquote, -⟩ := h.known id hid
    exact (hgrows.priceMinor hquote).symm

/-! ### The transaction -/

/-- A quote that is consumed keeps its terms. -/
lemma grows_consume {quote : QuoteRow} (hquote : db.quotes.get id = some quote) {at_ : Option ℕ}
    (hquotes : db'.quotes = db.quotes.set id { quote with consumedAt := at_ })
    (horders : db'.orders = db.orders) : db.Grows db' where
  quotes j row hrow := by
    rw [hquotes, OrderedMap.get_set]
    split
    · next heq =>
      subst heq
      rw [hquote] at hrow
      obtain rfl := Option.some.inj hrow
      exact ⟨_, rfl, rfl⟩
    · exact ⟨row, hrow, rfl⟩
  orders i order h := by rwa [horders]

/-- A line is written for a quote that no other line is for. -/
lemma books_writeLine {row : OrderRow} {locked : Rows} (h : db.Books owed)
    (horder : db.orders[order]? = some row) (howner : row.ownerId = input.ownerId)
    (hlocked : ∀ quote environment, locked.lookup id = some (quote, environment) →
      db.quotes.get id = some quote ∧ quote.ownerId = input.ownerId ∧
        quote.price.currency = row.total.currency)
    (hwrite : writeLine input order locked db id = .ok db') :
    db'.Books (Function.update owed order (owed order + db.priceMinor id)) ∧ db.Grows db' ∧
      db'.orders = db.orders ∧ ∀ j ≠ id, db'.quotes.get j = db.quotes.get j := by
  unfold writeLine at hwrite
  split at hwrite
  · contradiction
  next quote environment hlookup =>
  simp only [check_eq_ok, not_not, Except.ok.injEq] at hwrite
  obtain ⟨-, -, hheld, hfresh, hdb⟩ := hwrite
  obtain ⟨hquote, hquoteOwner, hcurrency⟩ := hlocked quote environment hlookup
  have hgrows : db.Grows db' := grows_consume hquote (by rw [← hdb]) (by rw [← hdb])
  have hquotes : ∀ j ≠ id, db'.quotes.get j = db.quotes.get j := by
    intro j hj
    rw [← hdb]
    exact OrderedMap.get_set_of_ne _ hj.symm
  have hnew : db'.quotes.get id = some { quote with consumedAt := some db.now } := by
    rw [← hdb]
    exact OrderedMap.get_set_self _
  have hothers : ∀ l ∈ db.lines, l.quoteId ≠ id := fun l hl heq =>
    hfresh (List.any_eq_true.mpr ⟨l, hl, decide_eq_true heq⟩)
  have hprice : db.priceMinor id = quote.price.minor := by rw [Db.priceMinor, hquote]; rfl
  subst hdb
  refine ⟨⟨h.keys, h.names.concat fun d hd => ?_, h.once.concat fun l hl => ?_, fun l hl => ?_,
    fun j q hj hconsumed => ?_, fun i l hl => ?_, fun j op hop => ?_, fun i => ?_⟩, hgrows, rfl,
    hquotes⟩
  · -- the name is not live
    rw [← not_or]
    rintro hsame
    refine hheld (List.any_eq_true.mpr ⟨d, hd, ?_⟩)
    rcases hsame with ⟨hlive, -, haccount, hname⟩ | ⟨-, hlive, haccount, hname⟩ <;>
      simp_all
  · exact ⟨hothers l hl, (hothers l hl).symm⟩
  · rcases List.mem_append.mp hl with hl | hl
    · obtain ⟨o, q, d, ho, hq, hd, hrest⟩ := h.sells l hl
      exact ⟨o, q, d, ho, (hquotes _ (hothers l hl)).trans hq, getElem?_concat_of_some hd, hrest⟩
    · obtain rfl := List.mem_singleton.mp hl
      exact ⟨row, _, _, horder, hnew, getElem?_concat_new .., hquoteOwner.trans howner.symm,
        rfl, rfl, hcurrency, howner.symm, rfl⟩
  · by_cases hid : j = id
    · subst hid
      exact ⟨_, List.mem_append_right _ (List.mem_singleton_self _), rfl⟩
    · rw [hquotes j hid] at hj
      obtain ⟨l, hl, hline⟩ := h.consumed j q hj hconsumed
      exact ⟨l, List.mem_append_left _ hl, hline⟩
  · rcases getElem?_concat.mp hl with hl | ⟨rfl, rfl⟩
    · obtain ⟨op, hop, horder', hline, hdomain, q, hq, hcost⟩ := h.fulfilled i l hl
      exact ⟨op, getElem?_concat_of_some hop, horder', hline, hdomain, q,
        (hquotes _ (hothers l (List.mem_of_getElem? hl))).trans hq, hcost⟩
    · exact ⟨_, getElem?_concat_new .., rfl, rfl, rfl, _, hnew, rfl, rfl, hquoteOwner.symm⟩
  · rcases getElem?_concat.mp hop with hop | ⟨rfl, rfl⟩
    · obtain ⟨l, hl, hline⟩ := h.operations j op hop
      exact ⟨l, getElem?_concat_of_some hl, hline⟩
    · exact ⟨_, getElem?_concat_new .., rfl⟩
  · have hold := h.charged i
    unfold Db.charged at hold ⊢
    rw [List.filter_append, List.map_append, List.sum_append, hold, hprice]
    by_cases hi : i = order
    · subst hi
      simp
    · have hne : ¬ order = i := fun heq => hi heq.symm
      simp [hi, hne]

/-- All lines of an order. -/
lemma books_writeLines {row : OrderRow} {locked : Rows} (hnodup : rest.Nodup) (h : db.Books owed)
    (horder : db.orders[order]? = some row) (howner : row.ownerId = input.ownerId)
    (hlocked : ∀ id ∈ rest, ∀ quote environment, locked.lookup id = some (quote, environment) →
      db.quotes.get id = some quote ∧ quote.ownerId = input.ownerId ∧
        quote.price.currency = row.total.currency)
    (hwrite : rest.foldlM (writeLine input order locked) db = .ok db') :
    db'.Books (Function.update owed order (owed order + (rest.map db.priceMinor).sum)) ∧
      db.Grows db' ∧ db'.orders = db.orders := by
  induction rest generalizing db owed with
  | nil =>
    obtain rfl := Except.ok.inj hwrite
    refine ⟨?_, .refl db, rfl⟩
    rwa [List.map_nil, List.sum_nil, add_zero, Function.update_eq_self]
  | cons id rest ih =>
    obtain ⟨hid, hnodup⟩ := List.nodup_cons.mp hnodup
    obtain ⟨hlockedId, hlockedRest⟩ := List.forall_mem_cons.mp hlocked
    rw [List.foldlM_cons, bind_eq_ok] at hwrite
    obtain ⟨mid, hline, hrest⟩ := hwrite
    obtain ⟨hbooks, hgrows, horders, hquotes⟩ := books_writeLine h horder howner hlockedId hline
    have hsame : ∀ j ∈ rest, mid.quotes.get j = db.quotes.get j := by
      rintro j hj
      refine hquotes j ?_
      rintro rfl
      exact hid hj
    obtain ⟨hbooks', hgrows', horders'⟩ := ih hnodup hbooks (by rw [horders, horder])
      (fun j hj => by rw [hsame j hj]; exact hlockedRest j hj) hrest
    have hprices : rest.map mid.priceMinor = rest.map db.priceMinor :=
      List.map_congr_left fun j hj => by rw [Db.priceMinor, hsame j hj]; rfl
    refine ⟨?_, hgrows.trans hgrows', horders'.trans horders⟩
    rw [Function.update_self, Function.update_idem, hprices, add_assoc] at hbooks'
    rwa [List.map_cons, List.sum_cons]

lemma quoteOf_eq_some {ownerId : String} {quote : QuoteRow} {environment : ProviderEnvironment}
    (h : db.quoteOf ownerId id = some (quote, environment)) :
    db.quotes.get id = some quote ∧ quote.ownerId = ownerId := by
  obtain ⟨row, hrow, h⟩ := Option.bind_eq_some_iff.mp h
  split at h
  · next howner =>
    obtain ⟨_, -, hpair⟩ := Option.map_eq_some_iff.mp h
    obtain ⟨rfl, -⟩ := Prod.mk.inj hpair
    exact ⟨hrow, howner⟩
  · contradiction

/-- What is read of a list of ids is read of one of them. -/
lemma lookup_filterMap {ids : List String} {f : String → Option (QuoteRow × ProviderEnvironment)}
    {row : QuoteRow × ProviderEnvironment}
    (h : (ids.filterMap fun j => (f j).map (j, ·)).lookup id = some row) : f id = some row := by
  obtain ⟨before, after, hsplit, -⟩ := List.lookup_eq_some_iff.mp h
  have hmem : (id, row) ∈ ids.filterMap fun j => (f j).map (j, ·) := by simp [hsplit]
  obtain ⟨j, -, hj⟩ := List.mem_filterMap.mp hmem
  obtain ⟨row', hrow', hpair⟩ := Option.map_eq_some_iff.mp hj
  obtain ⟨rfl, rfl⟩ := Prod.mk.inj hpair
  exact hrow'

lemma findOrderByKey_eq_some {key ownerId : String} {row : OrderRow}
    (h : db.findOrderByKey ownerId key = some (order, row)) :
    db.orders[order]? = some row ∧ row.ownerId = ownerId ∧ row.idempotencyKey = key := by
  obtain ⟨i, hi, h⟩ := Option.bind_eq_some_iff.mp h
  obtain ⟨o, ho, hpair⟩ := Option.map_eq_some_iff.mp h
  obtain ⟨rfl, rfl⟩ := Prod.mk.inj hpair
  obtain ⟨hlt, hkey, -⟩ := List.findIdx?_eq_some_iff_getElem.mp hi
  obtain ⟨_, rfl⟩ := List.getElem?_eq_some_iff.mp ho
  rw [Bool.and_eq_true, decide_eq_true_eq, decide_eq_true_eq] at hkey
  exact ⟨ho, hkey⟩

lemma findOrderByKey_eq_none {key ownerId : String} (h : db.findOrderByKey ownerId key = none) :
    ∀ row ∈ db.orders, ¬ (row.ownerId = ownerId ∧ row.idempotencyKey = key) := by
  have hnone : (db.orders.findIdx? fun o => o.ownerId = ownerId && o.idempotencyKey = key) =
      none := by
    by_contra hsome
    obtain ⟨i, hi⟩ := Option.ne_none_iff_exists'.mp hsome
    obtain ⟨hlt, -⟩ := List.findIdx?_eq_some_iff_getElem.mp hi
    rw [Db.findOrderByKey, hi, Option.bind_some, List.getElem?_eq_getElem hlt] at h
    contradiction
  intro row hrow hkey
  have hall := List.findIdx?_eq_none_iff.mp hnone row hrow
  rw [Bool.and_eq_false_iff, decide_eq_false_iff_not, decide_eq_false_iff_not] at hall
  rcases hall with hall | hall
  · exact hall hkey.1
  · exact hall hkey.2

/-- A new order has no lines yet. -/
lemma books_order (h : db.Books db.owed) {row : OrderRow}
    (hnew : ∀ other ∈ db.orders,
      ¬ (other.ownerId = row.ownerId ∧ other.idempotencyKey = row.idempotencyKey)) :
    ({ db with orders := db.orders ++ [row] } : Db).Books db.owed where
  keys := h.keys.concat fun other hother =>
    ⟨hnew other hother, fun hsame => hnew other hother ⟨hsame.1.symm, hsame.2.symm⟩⟩
  names := h.names
  once := h.once
  sells l hl := by
    obtain ⟨o, q, d, ho, hrest⟩ := h.sells l hl
    exact ⟨o, q, d, getElem?_concat_of_some ho, hrest⟩
  consumed := h.consumed
  fulfilled := h.fulfilled
  operations := h.operations
  charged := h.charged

/-- The call's order, as it was placed. -/
def Db.HasOrder (db : Db) (input : PlaceOrderInput) (intentHash : String) (order : ℕ) : Prop :=
  ∃ row, db.orders[order]? = some row ∧ row.ownerId = input.ownerId ∧
    row.idempotencyKey = input.idempotencyKey ∧ row.intentHash = intentHash

lemma Db.HasOrder.grows (h : db.HasOrder input intentHash order) (hgrows : db.Grows db') :
    db'.HasOrder input intentHash order := by
  obtain ⟨row, hrow, hrest⟩ := h
  exact ⟨row, hgrows.orders order row hrow, hrest⟩

lemma map_eq_ok {ε α β : Type*} {x : Except ε α} (f : α → β) {b : β} :
    x.map f = .ok b ↔ ∃ a, x = .ok a ∧ f a = b := by
  cases x with
  | error e => simp [Except.map]
  | ok a => simp [Except.map]

lemma nodup_ids (input : PlaceOrderInput) : input.ids.Nodup :=
  (List.mergeSort_perm _ _).nodup_iff.mpr (List.nodup_dedup _)

/-- **The transaction.** It writes an order that owes what its lines come to, or finds one. -/
theorem books_writeOrder {placed : PlacedOrder} (h : db.Books db.owed)
    (hpriced : db.Priced input.ids total)
    (hwrite : writeOrder db input input.ids intentHash total payment = .ok (placed, db')) :
    db'.Books db'.owed ∧ db.Grows db' ∧ db'.HasOrder input intentHash placed.order := by
  unfold writeOrder at hwrite
  split at hwrite
  · next id winner hfind =>
    rw [check_eq_ok, not_not] at hwrite
    obtain ⟨hhash, hwrite⟩ := hwrite
    obtain ⟨rfl, rfl⟩ := Prod.mk.inj (Except.ok.inj hwrite)
    obtain ⟨hrow, howner, hkey⟩ := findOrderByKey_eq_some hfind
    exact ⟨h, .refl db, winner, hrow, howner, hkey, hhash⟩
  next hfind =>
  obtain ⟨db'', hlines, hplaced⟩ := (map_eq_ok _).mp hwrite
  obtain ⟨rfl, rfl⟩ := Prod.mk.inj hplaced
  have hnone : db.orders[db.orders.length]? = none := List.getElem?_eq_none (Nat.le_refl _)
  have hbooks := @books_order db h ⟨input.ownerId, payment, total, input.idempotencyKey,
    intentHash⟩ (findOrderByKey_eq_none hfind)
  obtain ⟨hbooks', hgrows, horders⟩ := books_writeLines (nodup_ids input) hbooks
    (getElem?_concat_new ..) rfl (fun id hid quote environment hlookup => by
      obtain ⟨hquote, howner⟩ := quoteOf_eq_some (lookup_filterMap hlookup)
      obtain ⟨known, hknown, hcurrency⟩ := hpriced.known id hid
      rw [hquote] at hknown
      obtain rfl := Option.some.inj hknown
      exact ⟨hquote, howner, hcurrency⟩) hlines
  have hadds : db.Grows { db with orders := db.orders ++ [⟨input.ownerId, payment, total,
      input.idempotencyKey, intentHash⟩] } :=
    ⟨fun _ quote hquote => ⟨quote, hquote, rfl⟩, fun _ _ => getElem?_concat_of_some⟩
  have howed : db''.owed = Function.update db.owed db.orders.length
      (db.owed db.orders.length + (input.ids.map db.priceMinor).sum) := by
    ext i
    rw [← hpriced.minor, Db.owed, Db.owed, hnone, horders, Function.update_apply]
    split
    · next hi =>
      rw [hi, getElem?_concat_new]
      exact (Int.zero_add _).symm
    · next hi =>
      rw [Db.owed]
      rcases Nat.lt_or_ge i db.orders.length with hlt | hge
      · rw [List.getElem?_append_left hlt]
      · rw [List.getElem?_eq_none hge, List.getElem?_eq_none (by simp; omega)]
  have hrow := getElem?_concat_new db.orders ⟨input.ownerId, payment, total, input.idempotencyKey,
    intentHash⟩
  exact ⟨howed ▸ hbooks', hadds.trans hgrows, _, by rw [horders]; exact hrow, rfl, rfl, rfl⟩

/-! ### Calls -/

/-- The loop has the total of the quotes that it has passed. -/
structure Db.PricedSoFar (db : Db) (ids : List String) (p : Pricing) : Prop where
  rows : ∀ id quote environment, p.rows.lookup id = some (quote, environment) →
    ∃ known, db.quotes.get id = some known ∧ known.terms = quote.terms
  total : ∃ done, ids = done ++ p.rest ∧ (p.total = none → done = []) ∧
    ∀ total, p.total = some total → db.Priced done total

lemma Db.PricedSoFar.grows {p : Pricing} (h : db.PricedSoFar ids p) (hgrows : db.Grows db') :
    db'.PricedSoFar ids p where
  rows id quote environment hlookup := by
    obtain ⟨known, hknown, hterms⟩ := h.rows id quote environment hlookup
    obtain ⟨known', hknown', hterms'⟩ := hgrows.quotes id known hknown
    exact ⟨known', hknown', hterms'.trans hterms⟩
  total := by
    obtain ⟨done, hids, hnone, hsome⟩ := h.total
    exact ⟨done, hids, hnone, fun total htotal => (hsome total htotal).grows hgrows⟩

lemma addMoney_eq_ok {a b c : Money} (h : addMoney a b = .ok c) :
    a.currency = b.currency ∧ c.currency = a.currency ∧ c.minor = a.minor + b.minor := by
  unfold addMoney at h
  rw [check_eq_ok, not_not] at h
  obtain ⟨hcurrency, h⟩ := h
  obtain rfl := Except.ok.inj h
  exact ⟨hcurrency, rfl, rfl⟩

/-- A turn of the loop adds a price. -/
lemma pricedSoFar_next {p p' : Pricing} (h : db.PricedSoFar ids p) (hrest : p.rest = id :: rest)
    (hnext : p.next db id rest = .ok p') : db.PricedSoFar ids p' := by
  unfold Pricing.next at hnext
  split at hnext
  · contradiction
  next quote environment hlookup =>
  obtain ⟨known, hknown, hterms⟩ := h.rows id quote environment hlookup
  have hprice : known.price = quote.price := price_of_terms hterms
  have hminor : db.priceMinor id = quote.price.minor := by
    rw [Db.priceMinor, hknown, Option.map_some, hprice]
    rfl
  obtain ⟨done, hids, hnone, hsome⟩ := h.total
  have hsplit : ids = (done ++ [id]) ++ rest := by rw [hids, hrest, List.append_assoc]; rfl
  simp only [check_eq_ok] at hnext
  obtain ⟨-, -, -, -, hnext⟩ := hnext
  split at hnext
  · next htotal =>
    obtain rfl := Except.ok.inj hnext
    refine ⟨h.rows, done ++ [id], hsplit, (by simp), fun total htotal' => ?_⟩
    obtain rfl := Option.some.inj htotal'
    rw [hnone htotal, List.nil_append]
    refine ⟨fun j hj => ?_, ?_⟩
    · rw [List.mem_singleton.mp hj]
      exact ⟨known, hknown, by rw [hprice]⟩
    · rw [List.map_singleton, List.sum_singleton, hminor]
  · next total htotal =>
    split at hnext
    · contradiction
    next sum hsum =>
    obtain rfl := Except.ok.inj hnext
    obtain ⟨hcurrency, hsame, hadd⟩ := addMoney_eq_ok hsum
    refine ⟨h.rows, done ++ [id], hsplit, (by simp), fun total' htotal' => ?_⟩
    obtain rfl := Option.some.inj htotal'
    have hpriced := hsome total htotal
    refine ⟨fun j hj => ?_, ?_⟩
    · rcases List.mem_append.mp hj with hj | hj
      · obtain ⟨q, hq, hcur⟩ := hpriced.known j hj
        exact ⟨q, hq, hcur.trans hsame.symm⟩
      · rw [List.mem_singleton.mp hj]
        exact ⟨known, hknown, by rw [hprice, hsame, hcurrency]⟩
    · rw [List.map_append, List.sum_append, List.map_singleton, List.sum_singleton, hminor, hadd,
        hpriced.minor]

/-- What a call knows of the database. -/
def Call.Knows (hashIntent : List String → Bool → String) (call : Call) (db : Db) : Prop :=
  match call.phase with
  | .pricing p => db.PricedSoFar call.input.ids p
  | .authorizing total _ => db.Priced call.input.ids total
  | .writing total _ => db.Priced call.input.ids total
  | .returned placed =>
    db.HasOrder call.input (hashIntent call.input.ids call.input.privacy) placed.order
  | _ => True

variable {hashIntent : List String → Bool → String} {call : Call}

lemma Call.Knows.grows (h : call.Knows hashIntent db) (hgrows : db.Grows db') :
    call.Knows hashIntent db' := by
  obtain ⟨input, phase⟩ := call
  cases phase with
  | finding => trivial
  | selecting => trivial
  | pricing p => exact Db.PricedSoFar.grows h hgrows
  | authorizing total environment => exact Db.Priced.grows h hgrows
  | writing total payment => exact Db.Priced.grows h hgrows
  | returned placed => exact Db.HasOrder.grows h hgrows
  | threw err => trivial

/-- **Whatever a call awaits keeps the books**, and the call knows what it has learnt. -/
theorem books_advance (h : db.Books db.owed) (hcall : call.Knows hashIntent db)
    (answer : Option PaymentAuthorization) {phase : Phase}
    (hadvance : call.advance hashIntent db answer = (phase, db')) :
    db'.Books db'.owed ∧ db.Grows db' ∧ Call.Knows hashIntent { call with phase } db' := by
  obtain ⟨input, phase'⟩ := call
  unfold Call.advance at hadvance
  cases phase' with
  | finding =>
    dsimp only at hadvance
    split at hadvance
    · next id existing hfind =>
      split at hadvance
      · obtain ⟨rfl, rfl⟩ := Prod.mk.inj hadvance
        exact ⟨h, .refl db, trivial⟩
      · next hhash =>
        obtain ⟨rfl, rfl⟩ := Prod.mk.inj hadvance
        obtain ⟨hrow, howner, hkey⟩ := findOrderByKey_eq_some hfind
        exact ⟨h, .refl db, existing, hrow, howner, hkey, not_not.mp hhash⟩
    · split at hadvance <;>
        obtain ⟨rfl, rfl⟩ := Prod.mk.inj hadvance <;> exact ⟨h, .refl db, trivial⟩
  | selecting =>
    obtain ⟨rfl, rfl⟩ := Prod.mk.inj hadvance
    refine ⟨h, .refl db, fun id quote environment hlookup => ?_, [], rfl, fun _ => rfl, by simp⟩
    have hrow := lookup_filterMap hlookup
    obtain ⟨hrow, -⟩ := Option.filter_eq_some_iff.mp hrow
    exact ⟨quote, (quoteOf_eq_some hrow).1, rfl⟩
  | pricing p =>
    dsimp only at hadvance
    split at hadvance
    · next id rest hrest =>
      split at hadvance
      · next p' hnext =>
        obtain ⟨rfl, rfl⟩ := Prod.mk.inj hadvance
        exact ⟨h, .refl db, pricedSoFar_next hcall hrest hnext⟩
      · obtain ⟨rfl, rfl⟩ := Prod.mk.inj hadvance
        exact ⟨h, .refl db, trivial⟩
    · next hrest =>
      split at hadvance
      · next total environment htotal _ =>
        obtain ⟨rfl, rfl⟩ := Prod.mk.inj hadvance
        obtain ⟨done, hids, -, hsome⟩ := hcall.total
        rw [hrest, List.append_nil] at hids
        refine ⟨h, .refl db, ?_⟩
        rw [Call.Knows]
        exact hids ▸ hsome total htotal
      · obtain ⟨rfl, rfl⟩ := Prod.mk.inj hadvance
        exact ⟨h, .refl db, trivial⟩
  | authorizing total environment =>
    dsimp only at hadvance
    split at hadvance <;> obtain ⟨rfl, rfl⟩ := Prod.mk.inj hadvance
    · exact ⟨h, .refl db, hcall⟩
    · exact ⟨h, .refl db, trivial⟩
  | writing total payment =>
    dsimp only at hadvance
    split at hadvance
    · next placed written hwrite =>
      obtain ⟨rfl, rfl⟩ := Prod.mk.inj hadvance
      exact books_writeOrder h hcall hwrite
    · obtain ⟨rfl, rfl⟩ := Prod.mk.inj hadvance
      exact ⟨h, .refl db, trivial⟩
  | returned placed =>
    obtain ⟨rfl, rfl⟩ := Prod.mk.inj hadvance
    exact ⟨h, .refl db, hcall⟩
  | threw err =>
    obtain ⟨rfl, rfl⟩ := Prod.mk.inj hadvance
    exact ⟨h, .refl db, trivial⟩

/-! ### Runs -/

/-- The books are right, and every call knows what it has learnt. -/
structure World.Sound (hashIntent : List String → Bool → String) (w : World) : Prop where
  books : w.db.Books w.db.owed
  calls : ∀ id call, w.calls.get id = some call → call.Knows hashIntent w.db

variable {w : World}

/-- A step that leaves the calls alone. -/
lemma World.Sound.of_db (h : w.Sound hashIntent) (hbooks : db'.Books db'.owed)
    (hgrows : w.db.Grows db') : World.Sound hashIntent { w with db := db' } :=
  ⟨hbooks, fun id call hcall => (h.calls id call hcall).grows hgrows⟩

/-- A quote that is given is not consumed. -/
lemma books_quote (h : db.Books db.owed) {row : QuoteRow} (hfresh : db.quotes.get id = none) :
    let db' := { db with quotes := db.quotes.set id { row with consumedAt := none } }
    db'.Books db'.owed ∧ db.Grows db' := by
  have hold : ∀ j quote, db.quotes.get j = some quote →
      (db.quotes.set id { row with consumedAt := none }).get j = some quote := by
    intro j quote hquote
    rw [OrderedMap.get_set_of_ne _ ?_, hquote]
    rintro rfl
    rw [hfresh] at hquote
    contradiction
  refine ⟨⟨h.keys, h.names, h.once, fun l hl => ?_, fun j quote hquote hconsumed => ?_,
    fun i l hl => ?_, h.operations, h.charged⟩,
    fun j quote hquote => ⟨quote, hold j quote hquote, rfl⟩, fun _ _ ho => ho⟩
  · obtain ⟨o, q, d, ho, hq, hrest⟩ := h.sells l hl
    exact ⟨o, q, d, ho, hold _ q hq, hrest⟩
  · dsimp only at hquote
    rw [OrderedMap.get_set] at hquote
    split at hquote
    · obtain rfl := Option.some.inj hquote
      contradiction
    · exact h.consumed j quote hquote hconsumed
  · obtain ⟨op, hop, horder, hline, hdomain, q, hq, hcost⟩ := h.fulfilled i l hl
    exact ⟨op, hop, horder, hline, hdomain, q, hold _ q hq, hcost⟩

/-- What a worker learns changes the lifecycle of a domain, and makes no second live one. -/
lemma books_lifecycle (h : db.Books db.owed) {domain : ℕ} {row : PublicDomain}
    {lifecycle : Lifecycle} (hrow : db.domains[domain]? = some row)
    (hindex : ¬ (({ row with lifecycle } : PublicDomain).live && !row.live &&
      db.held row.providerAccountId row.asciiName) = true) :
    let db' := { db with domains := db.domains.set domain { row with lifecycle } }
    db'.Books db'.owed ∧ db.Grows db' := by
  refine ⟨⟨h.keys, h.names.set fun j d hd hj => ?_, h.once, fun l hl => ?_, h.consumed,
    h.fulfilled, h.operations, h.charged⟩, fun j quote hq => ⟨quote, hq, rfl⟩, fun _ _ ho => ho⟩
  · have hapart : ({ row with lifecycle } : PublicDomain).live = true → d.live = true →
        ¬ (d.providerAccountId = row.providerAccountId ∧ d.asciiName = row.asciiName) := by
      rintro hlive hdlive ⟨haccount, hname⟩
      cases hrowLive : row.live with
      | true => exact hj (h.names j domain d row hd hrow ⟨hdlive, hrowLive, haccount, hname⟩)
      | false =>
        refine hindex ?_
        rw [hlive, hrowLive, Bool.not_false, Bool.and_true, Bool.true_and]
        refine List.any_eq_true.mpr ⟨d, List.mem_of_getElem? hd, ?_⟩
        simp [haccount, hname, hdlive]
    constructor
    · rintro ⟨hd, hr, haccount, hname⟩
      exact hapart hr hd ⟨haccount, hname⟩
    · rintro ⟨hr, hd, haccount, hname⟩
      exact hapart hr hd ⟨haccount.symm, hname.symm⟩
  · obtain ⟨o, q, d, ho, hq, hd, hrest⟩ := h.sells l hl
    by_cases hsame : domain = l.publicDomainId
    · rw [hsame, hd] at hrow
      obtain rfl := Option.some.inj hrow
      refine ⟨o, q, { d with lifecycle }, ho, hq, ?_, hrest⟩
      rw [← hsame, List.getElem?_set_self]
      rw [← hsame] at hd
      exact lt_of_getElem? hd
    · exact ⟨o, q, d, ho, hq, by rw [List.getElem?_set_ne hsame, hd], hrest⟩

lemma sound_step (h : w.Sound hashIntent) (e : Event) :
    (w.step hashIntent e).Sound hashIntent := by
  cases e with
  | account id environment =>
    unfold World.step
    dsimp only
    split
    · exact h
    · exact h.of_db ⟨h.books.keys, h.books.names, h.books.once, h.books.sells, h.books.consumed,
        h.books.fulfilled, h.books.operations, h.books.charged⟩
        ⟨fun j quote hq => ⟨quote, hq, rfl⟩, fun _ _ ho => ho⟩
  | quote id row =>
    unfold World.step
    dsimp only
    split
    · exact h
    · next hfresh =>
      obtain ⟨hbooks, hgrows⟩ := @books_quote w.db id h.books row (by simpa using hfresh)
      exact h.of_db hbooks hgrows
  | lifecycle domain lifecycle =>
    unfold World.step
    dsimp only
    split
    · exact h
    · next row hrow =>
      split
      · exact h
      · next hindex =>
        obtain ⟨hbooks, hgrows⟩ := books_lifecycle h.books hrow hindex
        exact h.of_db hbooks hgrows
  | tick ms =>
    exact h.of_db ⟨h.books.keys, h.books.names, h.books.once, h.books.sells, h.books.consumed,
      h.books.fulfilled, h.books.operations, h.books.charged⟩
      ⟨fun j quote hq => ⟨quote, hq, rfl⟩, fun _ _ ho => ho⟩
  | place id input =>
    unfold World.step
    dsimp only
    split
    · exact h
    · exact ⟨h.books, OrderedMap.forall_set h.calls trivial⟩
  | advance id payment =>
    unfold World.step
    dsimp only
    split
    · exact h
    · next call hcall =>
      obtain ⟨hbooks, hgrows, hknows⟩ := books_advance h.books (h.calls id call hcall) payment rfl
      refine ⟨hbooks, OrderedMap.forall_set (fun j other hother => ?_) hknows⟩
      exact (h.calls j other hother).grows hgrows
  | crash id => exact ⟨h.books, OrderedMap.forall_delete h.calls⟩

lemma sound_run (events : List Event) :
    (run (World.step hashIntent) {} events).Sound hashIntent := by
  refine invariant (I := World.Sound hashIntent) (fun w e h => sound_step h e) ⟨?_, ?_⟩ events
  · constructor <;> simp [Distinct, Db.charged, Db.owed]
  · simp

/-- **Orders are charged once.** However calls, retries, crashes and workers interleave, a quote is
consumed exactly where one line is for it; an order's total is what its lines come to; a line has
one operation; a name is live once in an account; and calls with one key that return have one order,
placed for what each of them asks. -/
theorem orders_charged_once (events : List Event) :
    let w := run (World.step hashIntent) {} events
    w.db.Books w.db.owed ∧
      ∀ i j a b (placed placed' : PlacedOrder), w.calls.get i = some a → w.calls.get j = some b →
        a.phase = .returned placed → b.phase = .returned placed' →
          a.input.ownerId = b.input.ownerId → a.input.idempotencyKey = b.input.idempotencyKey →
            placed.order = placed'.order ∧
              hashIntent a.input.ids a.input.privacy = hashIntent b.input.ids b.input.privacy := by
  intro w
  have hsound : w.Sound hashIntent := sound_run events
  refine ⟨hsound.books, fun i j a b placed placed' ha hb hphase hphase' howner hkey => ?_⟩
  have hknows := hsound.calls i a ha
  have hknows' := hsound.calls j b hb
  rw [Call.Knows, hphase] at hknows
  rw [Call.Knows, hphase'] at hknows'
  obtain ⟨row, hrow, hrowOwner, hrowKey, hhash⟩ := hknows
  obtain ⟨row', hrow', hrowOwner', hrowKey', hhash'⟩ := hknows'
  have hsame : placed.order = placed'.order := hsound.books.keys _ _ row row' hrow hrow'
    ⟨by rw [hrowOwner, hrowOwner', howner], by rw [hrowKey, hrowKey', hkey]⟩
  rw [hsame, hrow'] at hrow
  obtain rfl := Option.some.inj hrow
  exact ⟨hsame, hhash.symm.trans hhash'⟩

end Tnp.Services.Orders
