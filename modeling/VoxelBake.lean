import VoxelBake.Library
import VoxelBake.Mesh.Cube
import VoxelBake.Proofs.Ancestry
import VoxelBake.Proofs.LoadHistory
import VoxelBake.Proofs.LockedTextures
import VoxelBake.Proofs.OutwardFaces
import VoxelBake.Proofs.ShelfPacking
import VoxelBake.Proofs.AtlasLayout
import VoxelBake.Proofs.MipLevels
import VoxelBake.Proofs.PackingBySize
import VoxelBake.Proofs.MipBleeding
import VoxelBake.Proofs.FrameRectangles
import VoxelBake.Proofs.FloatRounding
import VoxelBake.Proofs.AtlasCompletion
import VoxelBake.Proofs.Emission
import VoxelBake.Proofs.Colliders
import VoxelBake.Proofs.CompiledFaces
import VoxelBake.Proofs.UniformCube
import VoxelBake.Proofs.FlatItems
import VoxelBake.Proofs.DisjointDrawing
import VoxelBake.Proofs.VertexColumns
import VoxelBake.Proofs.PlacedModels
import VoxelBake.Proofs.VariantChoice
import VoxelBake.Proofs.BuildPhases
import VoxelBake.Proofs.SharedCaches
import VoxelBake.Proofs.TextureCoverage
import VoxelBake.Proofs.NearestDeclaration
import VoxelBake.Proofs.HermeticBuild
import VoxelBake.Proofs.LibraryHistory
import VoxelBake.Proofs.BrokenBlockstate
import VoxelBake.Proofs.HandoffSteps
import VoxelBake.Proofs.HandoffHistory
import VoxelBake.Proofs.HandoffOutcomes
import VoxelBake.Proofs.WeightedChoice
import VoxelBake.Proofs.VariantKeys
import VoxelBake.Proofs.PartConditions
import VoxelBake.Proofs.PartUnion
import VoxelBake.Proofs.BoundedWalks
import VoxelBake.Proofs.SlotResolution
import VoxelBake.Proofs.FrameGrids
import VoxelBake.Proofs.MipChains
import VoxelBake.Proofs.MipVisibility
import VoxelBake.Proofs.PageOrder
import VoxelBake.Proofs.OcclusionOrder
import VoxelBake.Proofs.CornerOcclusion
import VoxelBake.Proofs.OcclusionRange
import VoxelBake.Proofs.FloatValues
import VoxelBake.Proofs.PackedLight
import VoxelBake.Proofs.ItemRules
import VoxelBake.Proofs.SpriteTiling
import VoxelBake.Proofs.RescaledTurns
import VoxelBake.Proofs.WrittenNames
import VoxelBake.Proofs.StatefulWalks
import VoxelBake.Proofs.PageSearch
import VoxelBake.Proofs.LayerCounts
