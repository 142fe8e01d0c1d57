import Bidding.Model.RedisCacheService
import Bidding.Semantics.Footprint

/-!
# What the Methods are Made of

The methods of the cache service are sequences, loops and `try` blocks of commands inside one
frame. A property of actions that is kept by these is shown for a method by showing it for the
commands of the method; this module takes the methods apart once, for all such properties.

## Key Results

- **`Compositional`**: the properties in question.
- **`compositional_issues`**: issuing only commands of a kind is such a property.
- **`Compositional.of_getCategory`** to **`Compositional.of_setCategories`**: the methods, from
  their commands.
-/

namespace Bidding.Model

open Bidding.Effects Bidding.Effects.Action RedisCacheService

/-- A property of actions that composing actions keeps, and the frame of a method. -/
structure Compositional (Q : (α : Type) → Act α → Prop) : Prop where
  of_pure : ∀ {α : Type} (a : α), Q α (pure a)
  of_ofExcept : ∀ {α : Type} (r : Except Exn α), Q α (ofExcept r)
  of_bind : ∀ {α β : Type} {p : Act α} {f : α → Act β}, Q α p → (∀ a, Q β (f a)) → Q β (p >>= f)
  of_attempt : ∀ {α : Type} {p : Act α}, Q α p → Q (Except Exn α) (attempt p)
  of_guarded : ∀ {α : Type} {onFailure : α} {body : Act α}, Q α body →
    Q α (guarded onFailure body)
  of_now : Q Date now

/-- Issuing only certain commands, those of a connection and of the clock among them. -/
theorem compositional_issues {P : Cmd → Prop} (hconnect : P .connect)
    (hclose : ∀ jedis, P (.close jedis)) (hnow : P .now) :
    Compositional (fun _ p => Issues P p) where
  of_pure := issues_pure
  of_ofExcept := issues_ofExcept
  of_bind := issues_bind
  of_attempt := issues_attempt
  of_guarded := issues_guarded hconnect hclose
  of_now := issues_perform hnow

theorem compositional_within {fp : Footprint} : Compositional (fun _ p => Within fp p) :=
  compositional_issues trivial (fun _ => trivial) trivial

section Methods

variable {Q : (α : Type) → Act α → Prop} (hQ : Compositional Q)

include hQ

/-- A loop, from its body. -/
theorem Compositional.of_forEach {α : Type} {l : List α} {body : α → Act Unit}
    (hbody : ∀ a ∈ l, Q Unit (body a)) : Q Unit (forEach l body) := by
  induction l with
  | nil => exact hQ.of_pure ()
  | cons a as ih =>
    exact hQ.of_bind (hbody a List.mem_cons_self)
      fun _ => ih fun b hb => hbody b (List.mem_cons_of_mem a hb)

/-! ## Reading -/

/-- `getCategory`, from its reads. -/
theorem Compositional.of_getCategory {categoryId : Text}
    (hread : ∀ attr, Q _ (hget (.category categoryId) attr)) :
    Q _ (getCategory categoryId) := by
  apply hQ.of_guarded
  apply hQ.of_bind (hQ.of_attempt (hread _))
  -- each read that fails ends the method with what it has so far
  rintro (e | name)
  · exact hQ.of_pure _
  apply hQ.of_bind (hQ.of_attempt (hQ.of_bind (hread _) fun _ => hQ.of_ofExcept _))
  rintro (e | id)
  · exact hQ.of_pure _
  · exact hQ.of_pure _

theorem Compositional.of_getBidAmount {bidItemId : ℤ} {bidderName : Text}
    (hread : ∀ attr, Q _ (hget (.bidder bidItemId bidderName) attr)) :
    Q _ (getBidAmount bidItemId bidderName) := by
  apply hQ.of_bind (hread _)
  rintro (_ | s)
  · exact hQ.of_pure _
  · exact hQ.of_bind (hread _) fun _ => hQ.of_ofExcept _

/-- `getBidder`, from its reads. -/
theorem Compositional.of_getBidder {bidItemId : ℤ} {bidderName : Text}
    (hread : ∀ attr, Q _ (hget (.bidder bidItemId bidderName) attr)) :
    Q _ (getBidder bidItemId bidderName) := by
  apply hQ.of_guarded
  apply hQ.of_bind hQ.of_now
  intro time
  apply hQ.of_bind (hQ.of_attempt (hread _))
  -- a bidder is returned as far as it could be read
  rintro (e | name)
  · exact hQ.of_pure _
  apply hQ.of_bind (hQ.of_attempt (hread _))
  rintro (e | auto)
  · exact hQ.of_pure _
  apply hQ.of_bind (hQ.of_attempt (hQ.of_getBidAmount hread))
  rintro (e | amount)
  · exact hQ.of_pure _
  · exact hQ.of_pure _

/-- The loop of `getBidders`. -/
theorem Compositional.of_addCachedBidders {bidItemId : ℤ}
    (hread : ∀ name attr, Q _ (hget (.bidder bidItemId name) attr)) (names : List Text)
    (item : BidItem) : Q _ (addCachedBidders bidItemId names item) := by
  induction names generalizing item with
  | nil => exact hQ.of_pure _
  | cons name names ih =>
    apply hQ.of_bind (hQ.of_getBidder (hread name))
    rintro (_ | bidder)
    · exact ih _
    · exact ih _

/-- `getBidders`, from the names and the reads of each bidder. -/
theorem Compositional.of_getBidders {bidItemId : ℤ}
    (hnames : Q _ (smembers (.bidders bidItemId)))
    (hread : ∀ name attr, Q _ (hget (.bidder bidItemId name) attr)) (item : BidItem) :
    Q _ (getBidders bidItemId item) :=
  hQ.of_guarded (hQ.of_bind hnames fun names => hQ.of_addCachedBidders hread names item)

/-- The category is the one field that is fetched by another method. -/
theorem Compositional.of_read (hread : ∀ s attr, Q _ (hget (.category s) attr)) :
    ∀ r ∈ bidItemReaders, ∀ s, Q _ (r.read s) := by
  have hparsed : ∀ {α : Type} (attr : Attr) (parse : Option Text → Except Exn α)
      (store : α → BidItem → BidItem) (s : Option Text),
      Q _ ((parsed attr parse store).read s) := fun _ _ _ _ => hQ.of_ofExcept _
  simp only [bidItemReaders, List.forall_mem_cons, hparsed, implies_true, true_and,
    List.not_mem_nil, false_imp_iff, and_true]
  rintro (_ | s)
  · exact hQ.of_pure _
  · exact hQ.of_bind (hQ.of_getCategory (hread s)) fun _ => hQ.of_pure _

/-- The fields of an item, from the readers; the bidders come last. -/
theorem Compositional.of_fillBidItem {bidItemId : ℤ}
    (hread : ∀ attr, Q _ (hget (.bidItem bidItemId) attr))
    (hbidders : ∀ id item, Q _ (getBidders id item)) {readers : List Reader}
    (hreaders : ∀ r ∈ readers, ∀ s, Q _ (r.read s)) (item : BidItem) :
    Q _ (fillBidItem bidItemId readers item) := by
  induction readers generalizing item with
  | nil => exact hbidders _ _
  | cons r rs ih =>
    have hfield : Q _ (readField bidItemId r) :=
      hQ.of_bind (hread _) (hreaders r List.mem_cons_self)
    apply hQ.of_bind (hQ.of_attempt hfield)
    -- a field that cannot be read ends the loop
    rintro (e | store)
    · exact hQ.of_pure _
    · exact ih (fun r' hr' => hreaders r' (List.mem_cons_of_mem r hr')) _

theorem Compositional.of_getBidItemSequenceDetails {bidItemId : ℤ}
    (hread : Q _ (hgetAll (.bidSequence bidItemId))) :
    Q _ (getBidItemSequenceDetails bidItemId) :=
  hQ.of_guarded (hQ.of_bind hread fun _ => hQ.of_pure _)

theorem Compositional.of_getActiveBidItemId (hread : Q _ (get .activeBidItemId)) :
    Q _ getActiveBidItemId := by
  apply hQ.of_guarded
  apply hQ.of_bind hread
  rintro (_ | id)
  · exact hQ.of_pure _
  · exact hQ.of_ofExcept _

/-! ## Writing -/

/-- `setBidder`, from its writes. -/
theorem Compositional.of_setBidder {bidItemId : ℤ}
    (hadd : ∀ name, Q _ (sadd (.bidders bidItemId) name))
    (hwrite : ∀ name attr s, Q _ (hsetnx (.bidder bidItemId name) attr s)) (bidder : Bidder) :
    Q _ (setBidder bidItemId bidder) :=
  hQ.of_guarded <|
    hQ.of_bind (hQ.of_ofExcept _) fun name =>
    hQ.of_bind (hadd name) fun _ =>
    hQ.of_bind (hwrite name _ _) fun _ =>
    hQ.of_bind (hwrite name _ _) fun _ =>
    hwrite name _ _

theorem Compositional.of_setCategory {bidItemId : ℤ}
    (hadd : ∀ c, Q _ (sadd (.categoryItems c) (.long bidItemId))) (category : Option Category) :
    Q _ (setCategory bidItemId category) := by
  cases category with
  | none => exact hQ.of_pure ()
  | some c => exact hQ.of_guarded (hadd _)

theorem Compositional.of_writeCell {bidItemId : ℤ}
    (hwrite : ∀ attr s, Q _ (hsetnx (.bidItem bidItemId) attr s))
    (cell : Attr × Except Exn Text) : Q _ (writeCell bidItemId cell) :=
  hQ.of_bind (hQ.of_ofExcept _) fun _ => hwrite _ _

theorem Compositional.of_setBidders {bidItemId : ℤ}
    (hbidder : ∀ bidder, Q _ (setBidder bidItemId bidder)) (bidItem : BidItem) :
    Q _ (setBidders bidItemId bidItem) :=
  hQ.of_forEach fun bidder _ => hbidder bidder

/-- `setBidItem`: the set of items, the fields, the bidders and the category. -/
theorem Compositional.of_setBidItem {bidItemId : ℤ} {bidItem : BidItem}
    (hadd : Q _ (sadd .bidItems (.long bidItemId)))
    (hcells : ∀ cell ∈ bidItemCells bidItem, Q _ (writeCell bidItemId cell))
    (hbidder : ∀ bidder, Q _ (setBidder bidItemId bidder))
    (hcategory : ∀ category, Q _ (setCategory bidItemId category)) :
    Q _ (setBidItem bidItemId bidItem) :=
  hQ.of_guarded <|
    hQ.of_bind hadd fun _ =>
    hQ.of_bind (hQ.of_forEach hcells) fun _ =>
    hQ.of_bind (hQ.of_setBidders hbidder bidItem) fun _ =>
    hcategory _

/-- `setExpiredBidItem`, from its three writes. -/
theorem Compositional.of_setExpiredBidItem {bidItemId : ℤ}
    (hadd : Q _ (sadd .expiredBidItems (.long bidItemId)))
    (hstatus : Q _ (hset (.bidItem bidItemId) .statusCode (.str "CLOSED")))
    (hend : ∀ d, Q _ (hset (.bidItem bidItemId) .bidEndTime (Text.format d))) :
    Q _ (setExpiredBidItem bidItemId) :=
  hQ.of_guarded <|
    hQ.of_bind hadd fun _ =>
    hQ.of_bind hstatus fun _ =>
    hQ.of_bind hQ.of_now hend

/-- `setDate`, which writes only an item that the cache has. -/
theorem Compositional.of_setDate {attr : Attr} {bidItemId : ℤ} {d : Date}
    (hread : Q _ (sismember .bidItems (.long bidItemId)))
    (hwrite : Q _ (hset (.bidItem bidItemId) attr (Text.format d))) :
    Q _ (setDate attr bidItemId d) := by
  apply hQ.of_guarded
  apply hQ.of_bind hread
  rintro (_ | _)
  · exact hQ.of_pure _
  · exact hQ.of_bind hwrite fun _ => hQ.of_pure _

theorem Compositional.of_setCategories (hadd : ∀ s, Q _ (sadd .categories s))
    (hwrite : ∀ c attr s, Q _ (hset (.category c) attr s)) (categories : List Category) :
    Q _ (setCategories categories) :=
  hQ.of_guarded <| hQ.of_forEach fun _ _ =>
    hQ.of_bind (hadd _) fun _ =>
    hQ.of_bind (hQ.of_ofExcept _) fun _ =>
    hQ.of_bind (hwrite _ _ _) fun _ =>
    hwrite _ _ _

end Methods

end Bidding.Model
