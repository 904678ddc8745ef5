import BookMarket.Lib.FinmapTotal
import BookMarket.Lib.Lists
import BookMarket.Lib.Decimal
import BookMarket.Lib.Runs
import BookMarket.Lib.Simulation
import BookMarket.Lib.ZipFilter
import BookMarket.Lib.Cursor
import BookMarket.Lib.DerivedTable
import BookMarket.Lib.Split
import BookMarket.Lib.Codec
import BookMarket.Sui.Abort
import BookMarket.Sui.Text
import BookMarket.Sui.Utf8
import BookMarket.Sui.Object
import BookMarket.Sui.DynamicField
import BookMarket.Sui.Coin
import BookMarket.Contract.Marketplace
import BookMarket.Contract.BookNft
import BookMarket.Abstract.Market
import BookMarket.Chain.Transaction
import BookMarket.Chain.Layout
import BookMarket.Chain.LayoutSteps
import BookMarket.Chain.World
import BookMarket.Chain.Spec
import BookMarket.Chain.Bisimulation
import BookMarket.Chain.Reach
import BookMarket.Chain.Effect
import BookMarket.Chain.Contents
import BookMarket.Chain.Money
import BookMarket.Chain.Enabled
import BookMarket.Chain.Single
import BookMarket.Chain.Abstraction
import BookMarket.Props.Ledger
import BookMarket.Props.Exit
import BookMarket.Props.Custody
import BookMarket.Props.Success
import BookMarket.Props.Refinement
import BookMarket.Props.NftIntegrity
import BookMarket.Props.Minting
import BookMarket.Props.Commute
import BookMarket.Props.Supply
import BookMarket.Props.Passive
import BookMarket.Props.Order
import BookMarket.Props.Drain
import BookMarket.Props.Sale
import BookMarket.Dapp.MarketPage
import BookMarket.Dapp.MyList
import BookMarket.Dapp.Inputs
import BookMarket.Dapp.BuyCall
import BookMarket.Dapp.Dialogs
import BookMarket.Dapp.Paging
import BookMarket.Dapp.TransferPage
import BookMarket.Dapp.FloorPrice
import BookMarket.Dapp.ListForm
import BookMarket.Dapp.Number
import BookMarket.Dapp.BuyButton
import BookMarket.Wire.AddressText
import BookMarket.Wire.TypeText
import BookMarket.Wire.Bcs
import BookMarket.Wire.Block
import BookMarket.Dapp.MintForm
import BookMarket.Node.Index
import BookMarket.Node.Pages
