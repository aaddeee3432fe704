import AttributeStore.Wire.Operation
import AttributeStore.Wire.Shape

/-!
# The shapes of all replies

The members that a reply to each operation may have, the ones that nobody reads included.
-/

namespace AttributeStore.Wire

namespace Shape

def keyElement : Shape :=
  record [("AttributeName", text), ("KeyType", text)]

def attributeElement : Shape :=
  record [("AttributeName", text), ("AttributeType", text)]

def projection : Shape :=
  record [("ProjectionType", text), ("NonKeyAttributes", list text)]

def throughput : Shape :=
  record [("ReadCapacityUnits", int64), ("WriteCapacityUnits", int64),
    ("NumberOfDecreasesToday", int64), ("LastIncreaseDateTime", time),
    ("LastDecreaseDateTime", time)]

/-- Limits of capacity that is paid by use. -/
def onDemandThroughput : Shape :=
  record [("MaxReadRequestUnits", int64), ("MaxWriteRequestUnits", int64)]

/-- Capacity that is ready at once. -/
def warmThroughput : Shape :=
  record [("ReadUnitsPerSecond", int64), ("WriteUnitsPerSecond", int64), ("Status", text)]

/-- The members that the descriptions of all indexes share. -/
def indexMembers : List (String × Shape) :=
  [("IndexName", text), ("Projection", projection), ("IndexSizeBytes", int64),
    ("ItemCount", int64), ("IndexArn", text)]

def localIndex : Shape :=
  record (("KeySchema", list keyElement) :: indexMembers)

/-- The members that the descriptions of indexes share that are built beside their table. -/
def builtIndexMembers : List (String × Shape) :=
  indexMembers ++ [("IndexStatus", text), ("Backfilling", flag)]

def globalIndex : Shape :=
  record (builtIndexMembers ++
    [("KeySchema", list keyElement), ("ProvisionedThroughput", throughput),
      ("OnDemandThroughput", onDemandThroughput), ("WarmThroughput", warmThroughput)])

/-- An attribute by which the vectors found are narrowed down. -/
def searchElement : Shape :=
  record [("AttributeName", text), ("SearchSchemaElementType", text)]

def vectorIndex : Shape :=
  record (builtIndexMembers ++
    [("SearchSchema", list searchElement), ("VectorAttribute", record [("AttributeName", text)]),
      ("Dimensions", int64), ("DistanceFunction", text)])

/-- How a table is stored. -/
def tableClass : Shape :=
  record [("TableClass", text), ("LastUpdateDateTime", time)]

/-- The members that say how a replica departs from its table. -/
def overrideMembers : List (String × Shape) :=
  [("ProvisionedThroughputOverride", record [("ReadCapacityUnits", int64)]),
    ("OnDemandThroughputOverride", record [("MaxReadRequestUnits", int64)]),
    ("WarmThroughput", warmThroughput)]

/-- A replica of a table in another region. -/
def replica : Shape :=
  record (overrideMembers ++
    [("RegionName", text), ("ReplicaStatus", text), ("ReplicaArn", text),
      ("ReplicaStatusDescription", text), ("ReplicaStatusPercentProgress", text),
      ("KMSMasterKeyId", text),
      ("GlobalSecondaryIndexes", list (record (("IndexName", text) :: overrideMembers))),
      ("ReplicaInaccessibleDateTime", time), ("ReplicaTableClassSummary", tableClass),
      ("GlobalTableSettingsReplicationMode", text)])

def table : Shape :=
  record [("AttributeDefinitions", list attributeElement), ("TableName", text),
    ("KeySchema", list keyElement), ("TableStatus", text), ("CreationDateTime", time),
    ("ProvisionedThroughput", throughput), ("TableSizeBytes", int64), ("ItemCount", int64),
    ("TableArn", text), ("TableId", text),
    ("BillingModeSummary",
      record [("BillingMode", text), ("LastUpdateToPayPerRequestDateTime", time)]),
    ("LocalSecondaryIndexes", list localIndex), ("GlobalSecondaryIndexes", list globalIndex),
    ("VectorIndexes", list vectorIndex),
    ("StreamSpecification", record [("StreamEnabled", flag), ("StreamViewType", text)]),
    ("LatestStreamLabel", text), ("LatestStreamArn", text), ("GlobalTableVersion", text),
    ("Replicas", list replica),
    ("GlobalTableWitnesses", list (record [("RegionName", text), ("WitnessStatus", text)])),
    ("GlobalTableSettingsReplicationMode", text),
    ("RestoreSummary",
      record [("SourceBackupArn", text), ("SourceTableArn", text), ("RestoreDateTime", time),
        ("RestoreInProgress", flag)]),
    ("SSEDescription",
      record [("Status", text), ("SSEType", text), ("KMSMasterKeyArn", text),
        ("InaccessibleEncryptionDateTime", time)]),
    ("ArchivalSummary",
      record [("ArchivalDateTime", time), ("ArchivalReason", text),
        ("ArchivalBackupArn", text)]),
    ("TableClassSummary", tableClass), ("DeletionProtectionEnabled", flag),
    ("DisassociationProtectionEnabled", flag), ("OnDemandThroughput", onDemandThroughput),
    ("WarmThroughput", warmThroughput), ("MultiRegionConsistency", text)]

def capacityMembers : List (String × Shape) :=
  [("ReadCapacityUnits", real), ("WriteCapacityUnits", real), ("CapacityUnits", real)]

/-- Capacity that an operation used, as a whole, of the table and of each index. -/
def consumedCapacity : Shape :=
  record (capacityMembers ++
    [("TableName", text), ("Table", record capacityMembers),
      ("LocalSecondaryIndexes", map (record capacityMembers)),
      ("GlobalSecondaryIndexes", map (record capacityMembers)),
      ("VectorIndexes",
        map (record [("VectorSearchRequestBytes", real), ("VectorWriteRequestBytes", real)]))])

def item : Shape :=
  map attributeValue

/-- The size of the items that share a key. -/
def collectionMetrics : Shape :=
  record [("ItemCollectionKey", item), ("SizeEstimateRangeGB", list real)]

def writeRequest : Shape :=
  record [("PutRequest", record [("Item", item)]), ("DeleteRequest", record [("Key", item)])]

end Shape

namespace Operation

open Shape

def replyShape : Operation → Shape
  | createTable | updateTable | deleteTable => record [("TableDescription", table)]
  | describeTable => record [("Table", table)]
  | getItem => record [("Item", item), ("ConsumedCapacity", consumedCapacity)]
  | putItem | deleteItem =>
    record [("Attributes", item), ("ConsumedCapacity", consumedCapacity),
      ("ItemCollectionMetrics", collectionMetrics)]
  | query | scan =>
    record [("Items", list item), ("Count", int32), ("ScannedCount", int32),
      ("LastEvaluatedKey", item), ("ConsumedCapacity", consumedCapacity)]
  | batchWriteItem =>
    record [("UnprocessedItems", map (list writeRequest)),
      ("ItemCollectionMetrics", map (list collectionMetrics)),
      ("ConsumedCapacity", list consumedCapacity)]

end Operation

end AttributeStore.Wire
